import Stm32Board.Rtos.Defs
import Stm32Board.Common.Linked
import Mathlib.Data.Nat.Bitwise
import Mathlib.Tactic.SplitIfs

/-!
# The lists of the kernel

Whatever the threads do, each thread is on the list its state says, and the bits of the priority group
are the ready lists with a thread (`Kernel.Ok`). While a function moves a thread from one list to
another the thread is on none (`Kernel.ListsOk`).
-/

namespace Stm32Board.Rtos

open Common
open At (rtEok rtError rtEtimeout)

/-- The lists and the priority group agree with the states, except that the thread `x` is on no list. -/
structure Kernel.ListsOk (k : Kernel) (x : Option ThreadId) : Prop where
  linked : Linked k.list
  off : ∀ t, x = some t → ∀ l, t ∉ k.list l
  ready_iff : ∀ t, x ≠ some t → ∀ p,
    t ∈ k.list (.ready p) ↔ (k.thread t).stat = .ready ∧ (k.thread t).currentPriority = p
  object : ∀ t o, t ∈ k.list (.suspend o) → (k.thread t).stat = .suspend
  priority_lt : ∀ t, (k.thread t).currentPriority < 32
  group_iff : ∀ p : UInt8, p < 32 →
    (k.readyPriorityGroup.toNat.testBit p.toNat ↔ k.list (.ready p) ≠ [])
  timer : ∀ t, x ≠ some t → (k.thread t).timer → (k.thread t).stat = .suspend

/-- What holds whenever no function is under way: the lists are right, and the current thread is the
running one, or has suspended itself. -/
structure Kernel.Ok (k : Kernel) : Prop where
  lists : k.ListsOk none
  running : ∀ t, (k.thread t).stat = .running → t = k.currentThread
  current : (k.thread k.currentThread).stat = .running ∨ (k.thread k.currentThread).stat = .suspend
  originalPriority_lt : ∀ m, (k.mutex m).owner ≠ none → (k.mutex m).originalPriority < 32

/-! ## Fields -/

/-- A suspend list is no ready list. -/
theorem suspend_ne_ready (o : IpcObject) (p : UInt8) : RtList.suspend o ≠ .ready p := nofun

section Fields

variable (k : Kernel) (t : ThreadId) (f : Thread → Thread)

@[simp] theorem setThread_self : (k.setThread t f).thread t = f (k.thread t) := Function.update_self ..

/-- The other threads are left alone. -/
theorem setThread_of_ne {t' : ThreadId} (h : t' ≠ t) : (k.setThread t f).thread t' = k.thread t' :=
  Function.update_of_ne h ..

/-- Changing a thread moves nobody from list to list. -/
@[simp] theorem setThread_list : (k.setThread t f).list = k.list := rfl

@[simp] theorem setThread_current : (k.setThread t f).currentThread = k.currentThread := rfl

@[simp] theorem setThread_mutex : (k.setThread t f).mutex = k.mutex := rfl

@[simp] theorem setThread_sem : (k.setThread t f).sem = k.sem := rfl

@[simp] theorem setList_thread (l : RtList) (threads : List ThreadId) :
    (k.setList l threads).thread = k.thread := rfl

@[simp] theorem listRemove_thread : (rtListRemove k t).thread = k.thread := rfl

@[simp] theorem remove_thread : (rtScheduleRemoveThread k t).thread = k.thread := by
  unfold rtScheduleRemoveThread rtListRemove
  dsimp only
  split_ifs <;> rfl

@[simp] theorem remove_current : (rtScheduleRemoveThread k t).currentThread = k.currentThread := by
  unfold rtScheduleRemoveThread rtListRemove
  dsimp only
  split_ifs <;> rfl

@[simp] theorem remove_mutex : (rtScheduleRemoveThread k t).mutex = k.mutex := by
  unfold rtScheduleRemoveThread rtListRemove
  dsimp only
  split_ifs <;> rfl

@[simp] theorem remove_sem : (rtScheduleRemoveThread k t).sem = k.sem := by
  unfold rtScheduleRemoveThread rtListRemove
  dsimp only
  split_ifs <;> rfl

/-- The thread is on no list any more. -/
@[simp] theorem remove_list :
    (rtScheduleRemoveThread k t).list = fun l => (k.list l).erase t := by
  unfold rtScheduleRemoveThread rtListRemove
  dsimp only
  split_ifs <;> rfl

/-- The state that `rt_schedule_insert_thread` gives a thread. -/
def insertedStat : ThreadStat := if t = k.currentThread then .running else .ready

/-- `rt_schedule_insert_thread` makes a thread ready, unless it is the current one. -/
@[simp] theorem insert_self : (rtScheduleInsertThread k t).thread t =
    { k.thread t with stat := insertedStat k t } := by
  unfold rtScheduleInsertThread insertedStat
  dsimp only
  split_ifs
  · rw [setThread_self]
  · rw [setList_thread, setThread_self]

/-- It leaves the other threads alone. -/
theorem insert_of_ne {t' : ThreadId} (h : t' ≠ t) :
    (rtScheduleInsertThread k t).thread t' = k.thread t' := by
  unfold rtScheduleInsertThread
  dsimp only
  split_ifs
  · rw [setThread_of_ne _ _ _ h]
  · rw [setList_thread, setThread_of_ne _ _ _ h]

@[simp] theorem insert_current : (rtScheduleInsertThread k t).currentThread = k.currentThread := by
  unfold rtScheduleInsertThread
  dsimp only
  split_ifs <;> rfl

@[simp] theorem insert_mutex : (rtScheduleInsertThread k t).mutex = k.mutex := by
  unfold rtScheduleInsertThread
  dsimp only
  split_ifs <;> rfl

@[simp] theorem insert_sem : (rtScheduleInsertThread k t).sem = k.sem := by
  unfold rtScheduleInsertThread
  dsimp only
  split_ifs <;> rfl

/-- The lists of the objects are none of its business. -/
@[simp] theorem insert_list (o : IpcObject) :
    (rtScheduleInsertThread k t).list (.suspend o) = k.list (.suspend o) := by
  unfold rtScheduleInsertThread
  dsimp only
  split_ifs
  · rfl
  · unfold Kernel.setList
    dsimp only
    rw [Function.update_of_ne (suspend_ne_ready o _)]
    rfl

end Fields

/-! ## The priority group -/

/-- The mask of a thread is the bit of its current priority. -/
theorem numberMask_testBit {thread : Thread} (h : thread.currentPriority < 32) {p : UInt8}
    (hp : p < 32) :
    thread.numberMask.toNat.testBit p.toNat = decide (thread.currentPriority = p) := by
  have hlt : thread.currentPriority.toNat < 32 := h
  have hp' : p.toNat < 32 := hp
  unfold Thread.numberMask
  rw [UInt32.toNat_shiftLeft, UInt8.toNat_toUInt32, Nat.mod_eq_of_lt hlt, UInt32.toNat_one,
    Nat.one_shiftLeft, Nat.testBit_mod_two_pow, Nat.testBit_two_pow, decide_eq_true hp',
    Bool.true_and]
  exact decide_eq_decide.mpr UInt8.toNat_inj

/-- Setting the mask sets that bit. -/
theorem testBit_or_mask (group : UInt32) {thread : Thread} (h : thread.currentPriority < 32)
    {p : UInt8} (hp : p < 32) :
    (group ||| thread.numberMask).toNat.testBit p.toNat ↔
      group.toNat.testBit p.toNat ∨ thread.currentPriority = p := by
  rw [UInt32.toNat_or, Nat.testBit_or, numberMask_testBit h hp, Bool.or_eq_true, decide_eq_true_eq]

/-- Clearing the mask clears that bit. -/
theorem testBit_and_not_mask (group : UInt32) {thread : Thread} (h : thread.currentPriority < 32)
    {p : UInt8} (hp : p < 32) :
    (group &&& ~~~thread.numberMask).toNat.testBit p.toNat ↔
      group.toNat.testBit p.toNat ∧ thread.currentPriority ≠ p := by
  have hp' : p.toNat < 32 := hp
  have hmask := numberMask_testBit h hp
  rw [← UInt32.toNat_toBitVec, BitVec.testBit_toNat] at hmask
  rw [UInt32.toNat_and, Nat.testBit_and, ← UInt32.toNat_toBitVec (~~~thread.numberMask),
    BitVec.testBit_toNat, UInt32.toBitVec_not, BitVec.getLsbD_not, hmask, decide_eq_true hp',
    Bool.true_and, Bool.and_eq_true, Bool.not_eq_true', decide_eq_false_iff_not]

/-! ## Moving a thread -/

section Move

variable {k : Kernel} {t : ThreadId}

/-- A thread that is on no list. -/
theorem Kernel.ListsOk.of_notMem (h : k.ListsOk none) (hoff : ∀ l, t ∉ k.list l) :
    k.ListsOk (some t) := by
  refine ⟨h.linked, ?_, fun t' _ => h.ready_iff t' nofun, h.object, h.priority_lt, h.group_iff,
    fun t' _ => h.timer t' nofun⟩
  rintro t' ht
  obtain rfl := Option.some.inj ht
  exact hoff

/-- Only ready and suspended threads are on lists. -/
theorem Kernel.ListsOk.notMem (h : k.ListsOk none) (hready : (k.thread t).stat ≠ .ready)
    (hsuspend : (k.thread t).stat ≠ .suspend) (l : RtList) : t ∉ k.list l := by
  intro hmem
  cases l with
  | ready p => exact hready ((h.ready_iff t nofun p).mp hmem).1
  | suspend o => exact hsuspend (h.object t o hmem)

/-- It is on none of the lists that decide the group. -/
theorem Kernel.ListsOk.notMem_ready (h : k.ListsOk none) (hstat : (k.thread t).stat ≠ .ready)
    (p : UInt8) : t ∉ k.list (.ready p) :=
  fun hmem => hstat ((h.ready_iff t nofun p).mp hmem).1

/-- A thread that is taken off its list is the only one on none. -/
theorem Kernel.ListsOk.remove {x : Option ThreadId} (h : k.ListsOk x) (hx : x = none ∨ x = some t) :
    (rtScheduleRemoveThread k t).ListsOk (some t) := by
  have hmem : ∀ l b, b ∈ (k.list l).erase t ↔ b ≠ t ∧ b ∈ k.list l := fun l b =>
    h.linked.mem_erase_iff
  have hother : ∀ t', some t ≠ some t' → x ≠ some t' := by
    rintro t' hne rfl
    rcases hx with hx | hx
    · exact absurd hx nofun
    · exact hne hx.symm
  refine ⟨?_, ?_, ?_, ?_, ?_, ?_, ?_⟩
  · rw [remove_list]
    exact h.linked.erase t
  · rintro t' ht l
    obtain rfl := Option.some.inj ht
    rw [remove_list, hmem]
    exact fun hmem => hmem.1 rfl
  · intro t' ht p
    rw [remove_list, remove_thread, hmem, h.ready_iff t' (hother t' ht),
      and_iff_right fun heq => ht (congrArg some heq.symm)]
  · intro t' o hmem'
    rw [remove_list, hmem] at hmem'
    rw [remove_thread]
    exact h.object t' o hmem'.2
  · rw [remove_thread]
    exact h.priority_lt
  · intro p hp
    rw [remove_list]
    -- the only ready list that changes is that of the thread's own priority
    have hsame : (k.thread t).currentPriority ≠ p → (k.list (.ready p)).erase t = k.list (.ready p) := by
      intro hne
      refine List.erase_of_not_mem fun hmem => ?_
      rcases hx with rfl | rfl
      · exact hne ((h.ready_iff t nofun p).mp hmem).2
      · exact h.off t rfl _ hmem
    unfold rtScheduleRemoveThread rtListRemove
    dsimp only
    split_ifs with hempty
    · rw [testBit_and_not_mask _ (h.priority_lt t) hp, h.group_iff p hp]
      by_cases hp' : (k.thread t).currentPriority = p
      · rw [hp'] at hempty
        exact iff_of_false (fun h => h.2 hp') fun h => h hempty
      · rw [hsame hp', and_iff_left hp']
    · rw [h.group_iff p hp]
      by_cases hp' : (k.thread t).currentPriority = p
      · rw [hp'] at hempty
        refine iff_of_true (fun hnil => hempty ?_) hempty
        rw [hnil]
        rfl
      · rw [hsame hp']
  · intro t' ht
    rw [remove_thread]
    exact h.timer t' (hother t' ht)

/-- While it is on no list, a thread may be changed. -/
theorem Kernel.ListsOk.setThread (h : k.ListsOk (some t)) {f : Thread → Thread}
    (hprio : (f (k.thread t)).currentPriority < 32) : (k.setThread t f).ListsOk (some t) := by
  have hother : ∀ t', some t ≠ some t' → (k.setThread t f).thread t' = k.thread t' :=
    fun t' hne => setThread_of_ne _ _ _ fun heq => hne (congrArg some heq.symm)
  refine ⟨h.linked, h.off, fun t' ht p => ?_, fun t' o hmem => ?_, fun t' => ?_, h.group_iff,
    fun t' ht => ?_⟩
  · rw [hother t' ht]
    exact h.ready_iff t' ht p
  · rw [hother t' fun heq => h.off t' heq _ hmem]
    exact h.object t' o hmem
  · by_cases ht : some t = some t'
    · obtain rfl := Option.some.inj ht
      rw [setThread_self]
      exact hprio
    · rw [hother t' ht]
      exact h.priority_lt t'
  · rw [hother t' ht]
    exact h.timer t' ht

/-- A thread on no list that is not ready is accounted for. -/
theorem Kernel.ListsOk.close (h : k.ListsOk (some t)) (hstat : (k.thread t).stat ≠ .ready)
    (htimer : (k.thread t).timer → (k.thread t).stat = .suspend) : k.ListsOk none := by
  refine ⟨h.linked, fun _ h => absurd h nofun, fun t' _ p => ?_, h.object, h.priority_lt,
    h.group_iff, fun t' _ => ?_⟩
  · by_cases ht : some t = some t'
    · obtain rfl := Option.some.inj ht
      exact iff_of_false (h.off t rfl _) fun h => hstat h.1
    · exact h.ready_iff t' ht p
  · by_cases ht : some t = some t'
    · obtain rfl := Option.some.inj ht
      exact htimer
    · exact h.timer t' ht

/-- A suspended thread leaves the list of the object it waits for. -/
theorem Kernel.ListsOk.listRemove (h : k.ListsOk none) (hstat : (k.thread t).stat = .suspend) :
    (rtListRemove k t).ListsOk (some t) := by
  have hmem : ∀ l b, b ∈ (k.list l).erase t ↔ b ≠ t ∧ b ∈ k.list l := fun l b =>
    h.linked.mem_erase_iff
  have hready : ∀ p, (k.list (.ready p)).erase t = k.list (.ready p) := fun p =>
    List.erase_of_not_mem (h.notMem_ready (by rw [hstat]; decide) p)
  refine ⟨h.linked.erase t, ?_, fun t' _ p => ?_, fun t' o hmem' => ?_, h.priority_lt,
    fun p hp => ?_, fun t' _ => h.timer t' nofun⟩
  · rintro t' ht l hmem'
    obtain rfl := Option.some.inj ht
    exact ((hmem l t).mp hmem').1 rfl
  · show t' ∈ (k.list (.ready p)).erase t ↔ _
    rw [hready]
    exact h.ready_iff t' nofun p
  · exact h.object t' o ((hmem _ t').mp hmem').2
  · show _ ↔ (k.list (.ready p)).erase t ≠ []
    rw [hready]
    exact h.group_iff p hp

/-- And it is put back where its state says. -/
theorem Kernel.ListsOk.insert (h : k.ListsOk (some t)) (htimer : (k.thread t).timer = false) :
    (rtScheduleInsertThread k t).ListsOk none := by
  -- the current thread is not put on a list, it goes on running
  by_cases ht : t = k.currentThread
  · have heq : rtScheduleInsertThread k t =
        k.setThread t fun thread => { thread with stat := .running } := if_pos ht
    have hset : (k.setThread t fun thread => { thread with stat := .running }).ListsOk (some t) :=
      h.setThread (h.priority_lt t)
    rw [heq]
    refine hset.close ?_ ?_ <;> rw [setThread_self]
    · exact nofun
    · dsimp only
      rw [htimer]
      exact nofun
  · have hperm : (k.list (.ready (k.thread t).currentPriority) ++ [t]).Perm
        (t :: k.list (.ready (k.thread t).currentPriority)) := List.perm_append_singleton ..
    have hlist : (rtScheduleInsertThread k t).list = Function.update k.list
        (.ready (k.thread t).currentPriority) (k.list (.ready (k.thread t).currentPriority) ++ [t]) := by
      unfold rtScheduleInsertThread
      dsimp only
      rw [if_neg ht]
      rfl
    have hgroup : (rtScheduleInsertThread k t).readyPriorityGroup =
        k.readyPriorityGroup ||| (k.thread t).numberMask := by
      unfold rtScheduleInsertThread
      dsimp only
      rw [if_neg ht]
      rfl
    have hself : (rtScheduleInsertThread k t).thread t = { k.thread t with stat := .ready } := by
      rw [insert_self, insertedStat, if_neg ht]
    have hother : ∀ t', t' ≠ t → (rtScheduleInsertThread k t).thread t' = k.thread t' :=
      fun t' => insert_of_ne k t
    -- linked, off, ready lists, suspend lists, priorities, group bits, timers
    refine ⟨?_, fun _ h => absurd h nofun, fun t' _ p => ?_, fun t' o hmem => ?_, fun t' => ?_,
      fun p hp => ?_, fun t' _ => ?_⟩
    · rw [hlist]
      exact h.linked.insert (h.off t rfl) hperm
    · rw [hlist, Linked.mem_insert hperm]
      by_cases ht' : t' = t
      · subst ht'
        rw [hself, or_iff_left (h.off t' rfl _), RtList.ready.injEq, and_iff_right rfl,
          and_iff_right rfl]
        exact eq_comm
      · rw [hother t' ht', or_iff_right fun heq => ht' heq.1]
        exact h.ready_iff t' (fun heq => ht' (Option.some.inj heq).symm) p
    · rw [hlist, Linked.mem_insert hperm] at hmem
      have hmem' := hmem.resolve_left fun heq => absurd heq.2 nofun
      rw [hother t' fun heq => h.off t rfl _ (heq ▸ hmem')]
      exact h.object t' o hmem'
    · by_cases ht' : t' = t
      · subst ht'
        rw [hself]
        exact h.priority_lt t'
      · rw [hother t' ht']
        exact h.priority_lt t'
    · rw [hgroup, testBit_or_mask _ (h.priority_lt t) hp, hlist, h.group_iff p hp]
      by_cases hp' : (k.thread t).currentPriority = p
      · subst hp'
        rw [Function.update_self]
        exact iff_of_true (.inr rfl) (by simp)
      · rw [Function.update_of_ne (fun heq => hp' (RtList.ready.inj heq).symm), or_iff_left hp']
    · by_cases ht' : t' = t
      · subst ht'
        rw [hself]
        dsimp only
        rw [htimer]
        exact nofun
      · rw [hother t' ht']
        exact h.timer t' fun heq => ht' (Option.some.inj heq).symm

/-- A suspended thread that is on no list is put on the list of an object. -/
theorem Kernel.ListsOk.wait (h : k.ListsOk none) (hstat : (k.thread t).stat = .suspend)
    (hoff : ∀ l, t ∉ k.list l) {o : IpcObject} {threads : List ThreadId}
    (hperm : threads.Perm (t :: k.list (.suspend o))) :
    (k.setList (.suspend o) threads).ListsOk none := by
  have hready : ∀ p, (k.setList (.suspend o) threads).list (.ready p) = k.list (.ready p) := by
    intro p
    unfold Kernel.setList
    dsimp only
    rw [Function.update_of_ne (suspend_ne_ready o p).symm]
  refine ⟨h.linked.insert hoff hperm, fun _ h => absurd h nofun, fun t' _ p => ?_,
    fun t' o' hmem => ?_, h.priority_lt, fun p hp => ?_, h.timer⟩
  · rw [hready]
    exact h.ready_iff t' nofun p
  · rcases (Linked.mem_insert hperm _).mp hmem with ⟨rfl, -⟩ | hmem
    · exact hstat
    · exact h.object t' o' hmem
  · rw [hready]
    exact h.group_iff p hp

/-- A thread that keeps its state may be changed otherwise; a ready one keeps its priority too. -/
theorem Kernel.ListsOk.change (h : k.ListsOk none) {f : Thread → Thread}
    (hstat : (f (k.thread t)).stat = (k.thread t).stat)
    (hready : (k.thread t).stat = .ready →
      (f (k.thread t)).currentPriority = (k.thread t).currentPriority)
    (hprio : (f (k.thread t)).currentPriority < 32)
    (htimer : (f (k.thread t)).timer → (k.thread t).stat = .suspend) :
    (k.setThread t f).ListsOk none := by
  have hother : ∀ t', t' ≠ t → (k.setThread t f).thread t' = k.thread t' :=
    fun t' => setThread_of_ne k t f
  refine ⟨h.linked, fun _ h => absurd h nofun, fun t' _ p => ?_, fun t' o hmem => ?_, fun t' => ?_,
    h.group_iff, fun t' _ => ?_⟩ <;> by_cases ht : t' = t
  · subst ht
    rw [setThread_list, h.ready_iff t' nofun, setThread_self, hstat]
    exact and_congr_right fun hst => by rw [hready hst]
  · rw [hother t' ht]
    exact h.ready_iff t' nofun p
  · subst ht
    rw [setThread_self, hstat]
    exact h.object t' o hmem
  · rw [hother t' ht]
    exact h.object t' o hmem
  · subst ht
    rw [setThread_self]
    exact hprio
  · rw [hother t' ht]
    exact h.priority_lt t'
  · subst ht
    rw [setThread_self, hstat]
    exact htimer
  · rw [hother t' ht]
    exact h.timer t' nofun

end Move

/-! ## The functions keep the lists -/

/-- A thread on no list is inserted into the ready table, or goes on if it is the current one. -/
theorem insert_ok {k : Kernel} {t : ThreadId} (hl : k.ListsOk (some t))
    (htimer : (k.thread t).timer = false)
    (hrun : ∀ t', t' ≠ t → (k.thread t').stat = .running → t' = k.currentThread)
    (hcur : t ≠ k.currentThread → (k.thread k.currentThread).stat = .running ∨
      (k.thread k.currentThread).stat = .suspend)
    (horig : ∀ m, (k.mutex m).owner ≠ none → (k.mutex m).originalPriority < 32) :
    (rtScheduleInsertThread k t).Ok := by
  refine ⟨hl.insert htimer, fun t' hstat => ?_, ?_, ?_⟩
  · rw [insert_current]
    by_cases ht : t' = t
    · subst ht
      rw [insert_self] at hstat
      unfold insertedStat at hstat
      by_contra hne
      rw [if_neg hne] at hstat
      exact absurd hstat nofun
    · rw [insert_of_ne k t ht] at hstat
      exact hrun t' ht hstat
  · rw [insert_current]
    by_cases ht : t = k.currentThread
    · rw [← ht, insert_self]
      exact .inl (if_pos ht)
    · rw [insert_of_ne k t (Ne.symm ht)]
      exact hcur ht
  · rw [insert_mutex]
    exact horig

section Functions

variable {k : Kernel} {t : ThreadId} (h : k.Ok)
include h

/-- Fields of a thread that no list depends on may change. -/
theorem Kernel.Ok.change {f : Thread → Thread} (hstat : (f (k.thread t)).stat = (k.thread t).stat)
    (hready : (k.thread t).stat = .ready →
      (f (k.thread t)).currentPriority = (k.thread t).currentPriority)
    (hprio : (f (k.thread t)).currentPriority < 32)
    (htimer : (f (k.thread t)).timer → (k.thread t).stat = .suspend) : (k.setThread t f).Ok := by
  have hsame : ∀ t', ((k.setThread t f).thread t').stat = (k.thread t').stat := by
    intro t'
    by_cases ht : t' = t
    · rw [ht, setThread_self, hstat]
    · rw [setThread_of_ne k t f ht]
  refine ⟨h.lists.change hstat hready hprio htimer, fun t' => ?_, ?_, h.originalPriority_lt⟩
  · rw [hsame]
    exact h.running t'
  · rw [hsame]
    exact h.current

/-- Only the objects change. -/
theorem Kernel.Ok.setSem (s : SemId) (sem : Semaphore) : (k.setSem s sem).Ok :=
  ⟨⟨h.lists.linked, h.lists.off, h.lists.ready_iff, h.lists.object, h.lists.priority_lt,
    h.lists.group_iff, h.lists.timer⟩, h.running, h.current, h.originalPriority_lt⟩

/-- A mutex must remember a priority that exists. -/
theorem Kernel.Ok.setMutex (m : MutexId) {mutex : Mutex}
    (hmutex : mutex.owner ≠ none → mutex.originalPriority < 32) : (k.setMutex m mutex).Ok := by
  refine ⟨⟨h.lists.linked, h.lists.off, h.lists.ready_iff, h.lists.object, h.lists.priority_lt,
    h.lists.group_iff, h.lists.timer⟩, h.running, h.current, fun m' => ?_⟩
  unfold Kernel.setMutex
  dsimp only
  rw [Function.update_apply]
  split_ifs
  · exact hmutex
  · exact h.originalPriority_lt m'

/-- `rt_thread_resume` keeps the lists in order. -/
theorem rtThreadResume_ok (hstat : (k.thread t).stat = .suspend) : (rtThreadResume k t).1.Ok := by
  unfold rtThreadResume
  rw [if_neg (not_not.mpr hstat)]
  dsimp only
  refine insert_ok ((h.lists.listRemove hstat).setThread (h.lists.priority_lt t)) ?_
    (fun t' hne => ?_) (fun hne => ?_) h.originalPriority_lt
  · rw [setThread_self]
  · rw [setThread_of_ne _ _ _ hne]
    exact h.running t'
  · rw [setThread_of_ne _ _ _ (Ne.symm hne)]
    exact h.current

theorem rtThreadTimeout_ok (hstat : (k.thread t).stat = .suspend) : (rtThreadTimeout k t).Ok := by
  have hset : (k.setThread t fun thread =>
      { thread with error := -rtEtimeout, timer := false }).Ok :=
    h.change rfl (fun _ => rfl) (h.lists.priority_lt t) nofun
  refine insert_ok (hset.lists.listRemove ?_) ?_ (fun t' _ => hset.running t')
    (fun _ => hset.current) hset.originalPriority_lt
  · rw [setThread_self]
    exact hstat
  · rw [listRemove_thread, setThread_self]

omit h in
/-- `rt_thread_suspend` of a running thread takes it off the ready list and stops its timer. -/
theorem rtThreadSuspend_eq (hstat : (k.thread t).stat = .running) :
    rtThreadSuspend k t = ((rtScheduleRemoveThread k t).setThread t
      fun thread => { thread with stat := .suspend, timer := false }, rtEok) :=
  if_neg fun hne => hne.2 hstat

/-- The running thread suspends itself; it is on no list then. -/
theorem rtThreadSuspend_ok (hstat : (k.thread t).stat = .running) :
    (rtThreadSuspend k t).1.Ok ∧ ∀ l, t ∉ (rtThreadSuspend k t).1.list l := by
  rw [rtThreadSuspend_eq hstat]
  dsimp only
  have hset : ((rtScheduleRemoveThread k t).setThread t
      fun thread => { thread with stat := .suspend, timer := false }).ListsOk (some t) :=
    (h.lists.remove (.inl rfl)).setThread (by rw [remove_thread]; exact h.lists.priority_lt t)
  refine ⟨⟨hset.close ?_ ?_, fun t' hstat' => ?_, ?_, ?_⟩, hset.off t rfl⟩
  · rw [setThread_self]
    exact nofun
  · rw [setThread_self]
    exact nofun
  · by_cases ht : t' = t
    · rw [ht, setThread_self] at hstat'
      exact absurd hstat' nofun
    · rw [setThread_of_ne _ _ _ ht, remove_thread] at hstat'
      rw [setThread_current, remove_current]
      exact h.running t' hstat'
  · rw [setThread_current, remove_current, ← h.running t hstat, setThread_self]
    exact .inr rfl
  · rw [setThread_mutex, remove_mutex]
    exact h.originalPriority_lt

/-- A new priority moves a ready thread to the list of that priority. -/
theorem changePriority_ok {priority : UInt8} (hprio : priority < 32) :
    (changePriority k t priority).Ok := by
  unfold changePriority
  split_ifs with hready
  · dsimp only
    have htimer : (k.thread t).timer = false := by
      by_contra htimer
      exact absurd ((h.lists.timer t nofun (by simpa using htimer)).symm.trans hready) (by decide)
    refine insert_ok ((h.lists.remove (.inl rfl)).setThread hprio) ?_ (fun t' hne => ?_)
      (fun hne => ?_) ?_
    · rw [setThread_self, remove_thread]
      exact htimer
    · rw [setThread_of_ne _ _ _ hne, setThread_current, remove_thread, remove_current]
      exact h.running t'
    · rw [setThread_of_ne _ _ _ (Ne.symm hne), setThread_current, remove_thread, remove_current]
      exact h.current
    · rw [setThread_mutex, remove_mutex]
      exact h.originalPriority_lt
  · exact h.change rfl (fun hstat => absurd hstat hready) hprio (h.lists.timer t nofun)

omit h in
/-- However a suspend list is ordered, one thread joins it. -/
theorem insertWaiting_perm (priority : ThreadId → UInt8) (flag : IpcFlag) (t : ThreadId)
    (threads : List ThreadId) : (insertWaiting priority flag t threads).Perm (t :: threads) := by
  cases flag with
  | fifo => exact List.perm_append_singleton ..
  | prio => exact List.perm_orderedInsert ..

/-- The current thread goes from the ready list to a suspend list. -/
theorem suspendOn_ok (hstat : (k.thread t).stat = .running) (o : IpcObject) (flag : IpcFlag)
    (time : ℤ) : (suspendOn k (.suspend o) t flag time).Ok := by
  obtain ⟨hok, hoff⟩ := rtThreadSuspend_ok h hstat
  have hsuspend : ((rtThreadSuspend k t).1.thread t).stat = .suspend := by
    rw [rtThreadSuspend_eq hstat, setThread_self]
  unfold suspendOn rtIpcListSuspend
  generalize (rtThreadSuspend k t).1 = k' at hok hoff hsuspend
  dsimp only
  have hwait : (k'.setList (.suspend o) (insertWaiting (fun s => (k'.thread s).currentPriority) flag t
      (k'.list (.suspend o)))).Ok :=
    ⟨hok.lists.wait hsuspend hoff (insertWaiting_perm _ flag t _), hok.running, hok.current,
      hok.originalPriority_lt⟩
  split_ifs
  · exact hwait.change rfl (fun _ => rfl) (hok.lists.priority_lt t) fun _ => hsuspend
  · exact hwait

/-- `rt_thread_sleep` puts the current thread on no list. -/
theorem rtThreadSleep_ok (hstat : (k.thread t).stat = .running) : (rtThreadSleep k t).Ok := by
  have hok := (rtThreadSuspend_ok h hstat).1
  unfold rtThreadSleep
  refine hok.change rfl (fun _ => rfl) (hok.lists.priority_lt t) fun _ => ?_
  rw [rtThreadSuspend_eq hstat, setThread_self]

/-- The first thread of a list is woken. -/
theorem rtIpcListResume_ok (o : IpcObject) : (rtIpcListResume k (.suspend o)).Ok := by
  unfold rtIpcListResume
  cases hlist : k.list (.suspend o) with
  | nil => exact h
  | cons t threads =>
    exact rtThreadResume_ok h (h.lists.object t o (hlist ▸ List.mem_cons_self))

/-- `rt_sem_release` keeps the lists in order. -/
theorem rtSemRelease_ok (s : SemId) : (rtSemRelease k s).Ok := by
  unfold rtSemRelease
  split_ifs
  · exact rtIpcListResume_ok h (.sem s)
  · exact h.setSem s _

/-- The error of a thread is of no account here. -/
theorem Kernel.Ok.setError (t : ThreadId) (error : ℤ) :
    (k.setThread t fun thread => { thread with error := error }).Ok :=
  h.change rfl (fun _ => rfl) (h.lists.priority_lt t) (h.lists.timer t nofun)

omit h in
/-- A change that leaves the state of its thread leaves all states. -/
theorem setThread_stat {f : Thread → Thread} (hf : (f (k.thread t)).stat = (k.thread t).stat)
    (t' : ThreadId) : ((k.setThread t f).thread t').stat = (k.thread t').stat := by
  by_cases ht : t' = t
  · rw [ht, setThread_self, hf]
  · rw [setThread_of_ne k t f ht]

/-- `rt_sem_take` of a running thread keeps the lists in order. -/
theorem rtSemTake_ok (hstat : (k.thread k.currentThread).stat = .running) (s : SemId) (time : ℤ) :
    (rtSemTake k s time).1.Ok := by
  unfold rtSemTake
  dsimp only
  split_ifs
  · exact h.setSem s _
  · exact h
  · exact suspendOn_ok (h.setError _ _) ((setThread_stat (by rfl) _).trans hstat) (.sem s) _ time

/-- Inheriting a priority keeps the lists in order. -/
theorem inheritPriority_ok (owner : Option ThreadId) {priority : UInt8} (hprio : priority < 32) :
    (inheritPriority k owner priority).Ok := by
  unfold inheritPriority
  cases owner with
  | none => exact h
  | some o =>
    dsimp only
    split_ifs
    · exact changePriority_ok h hprio
    · exact h

omit h in
/-- The running thread goes on running with another priority. -/
theorem changePriority_stat {t t' : ThreadId} (priority : UInt8)
    (hstat : (k.thread t').stat = .running) :
    ((changePriority k t priority).thread t').stat = .running := by
  unfold changePriority
  split_ifs with hready
  · have ht : t' ≠ t := by
      rintro rfl
      exact absurd (hstat.symm.trans hready) (by decide)
    dsimp only
    rw [insert_of_ne _ _ ht, setThread_of_ne _ _ _ ht, remove_thread]
    exact hstat
  · exact (setThread_stat (by rfl) _).trans hstat

omit h in
/-- And so it does when somebody inherits its priority. -/
theorem inheritPriority_stat (owner : Option ThreadId) (priority : UInt8) {t : ThreadId}
    (hstat : (k.thread t).stat = .running) :
    ((inheritPriority k owner priority).thread t).stat = .running := by
  unfold inheritPriority
  cases owner with
  | none => exact hstat
  | some o =>
    dsimp only
    split_ifs
    · exact changePriority_stat priority hstat
    · exact hstat

/-- `rt_mutex_take` of a running thread keeps the lists in order. -/
theorem rtMutexTake_ok (hstat : (k.thread k.currentThread).stat = .running) (m : MutexId)
    (time : ℤ) : (rtMutexTake k m time).1.Ok := by
  have herror := h.setError k.currentThread rtEok
  have hstat' : ((k.setThread k.currentThread fun thread => { thread with error := rtEok }).thread
      k.currentThread).stat = .running := (setThread_stat (by rfl) _).trans hstat
  unfold rtMutexTake
  dsimp only
  generalize (k.setThread k.currentThread fun thread => { thread with error := rtEok }) = k'
    at herror hstat'
  split_ifs
  · exact herror.setMutex m (herror.originalPriority_lt m)
  · exact herror.setMutex m fun _ => herror.lists.priority_lt _
  · exact herror.setError _ _
  · exact suspendOn_ok (inheritPriority_ok herror _ (herror.lists.priority_lt _))
      (inheritPriority_stat _ _ hstat') (.mutex m) _ time

/-- The mutex goes to a thread that waits for it, which is woken. -/
theorem passOn_ok (m : MutexId) : (passOn k m).Ok := by
  unfold passOn
  cases hlist : k.list (.suspend (.mutex m)) with
  | nil => exact h.setMutex m fun hne => absurd rfl hne
  | cons t threads =>
    have hset : (k.setMutex m
        { k.mutex m with
          owner := some t
          originalPriority := (k.thread t).currentPriority
          hold := (k.mutex m).hold + 1 }).Ok := h.setMutex m fun _ => h.lists.priority_lt t
    exact rtIpcListResume_ok hset (.mutex m)

/-- `rt_mutex_release` keeps the lists in order. -/
theorem rtMutexRelease_ok (m : MutexId) : (rtMutexRelease k m).1.Ok := by
  have hset : (k.setMutex m { k.mutex m with hold := (k.mutex m).hold - 1 }).Ok :=
    h.setMutex m (h.originalPriority_lt m)
  unfold rtMutexRelease
  dsimp only
  split_ifs with howner hhold hprio
  · exact h.setError _ _
  · refine passOn_ok (changePriority_ok hset (h.originalPriority_lt m ?_)) m
    rw [not_not.mp howner]
    exact nofun
  · exact passOn_ok hset m
  · exact hset

end Functions

end Stm32Board.Rtos
