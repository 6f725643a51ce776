import Stm32Board.Rtos.Mutex
import Mathlib.Data.Finset.Card

/-!
# No wakeup is lost

What is released into a semaphore is there, was taken, or was given to a thread that has not come back
yet (`kernelRun_semaphore`): nothing is lost or doubled, whoever waits, times out or is preempted, and
nobody waits while there is something to take.
-/

namespace Stm32Board.Rtos

open Common Common.Transition
open At (rtEok rtError rtEtimeout)

/-- One element more. -/
theorem card_filter_or_eq {α : Type} [DecidableEq α] {P Q : α → Prop} [DecidablePred P]
    [DecidablePred Q] {T : Finset α} {a : α} (h : ∀ b, Q b ↔ P b ∨ a = b) (ha : ¬P a) (hT : a ∈ T) :
    (T.filter Q).card = (T.filter P).card + 1 := by
  have hinsert : T.filter Q = insert a (T.filter P) := by
    ext b
    rw [Finset.mem_filter, Finset.mem_insert, Finset.mem_filter, h]
    constructor
    · rintro ⟨hb, hP | rfl⟩
      · exact .inr ⟨hb, hP⟩
      · exact .inl rfl
    · rintro (rfl | ⟨hb, hP⟩)
      · exact ⟨hT, .inr rfl⟩
      · exact ⟨hb, .inl hP⟩
  rw [hinsert, Finset.card_insert_of_notMem fun hmem => ha (Finset.mem_filter.mp hmem).2]

/-! ## One semaphore -/

/-- Of all that was put into a semaphore, `T` being the threads. -/
structure SemOk (T : Finset ThreadId) (total : ℕ) (y : System Ipc) (s : SemId) : Prop where
  free : (y.state.sem s).value ≠ 0 → y.state.queue (.sem s) = []
  tally : (y.state.sem s).value.toNat + successes (fun _ => Call.takes (.sem s)) y.log +
    (T.filter (y.state.Granted y.waiting (.sem s))).card = total

section Step

variable {T : Finset ThreadId} {total : ℕ} {y y' : System Ipc} {s : SemId} {t : ThreadId}

/-- It is about the value, the queue, the threads that were given the semaphore, and the takes. -/
theorem SemOk.congr (h : SemOk T total y s) (hsem : (y'.state.sem s).value = (y.state.sem s).value)
    (hqueue : ∀ t, t ∈ y'.state.queue (.sem s) → t ∈ y.state.queue (.sem s))
    (hgranted : ∀ t, y'.state.Granted y'.waiting (.sem s) t ↔
      y.state.Granted y.waiting (.sem s) t)
    (htakes : successes (fun _ => Call.takes (.sem s)) y'.log = successes (fun _ => Call.takes (.sem s)) y.log) :
    SemOk T total y' s := by
  refine ⟨fun hvalue => ?_, ?_⟩
  · rw [hsem] at hvalue
    refine List.eq_nil_iff_forall_not_mem.mpr fun t hmem => ?_
    exact List.not_mem_nil (h.free hvalue ▸ hqueue t hmem)
  · rw [hsem, htakes, Finset.filter_congr fun t _ => hgranted t]
    exact h.tally

/-- The value goes down by one above 0. -/
theorem toNat_sub_one' {value : UInt16} (h : value ≠ 0) :
    value.toNat = (value - 1).toNat + 1 := by
  have hne : value.toNat ≠ 0 := fun heq => h (UInt16.toNat_inj.mp heq)
  rw [UInt16.toNat_sub_of_le _ _ (by rw [UInt16.le_iff_toNat_le, UInt16.toNat_one]; omega),
    UInt16.toNat_one]
  omega

/-- And up by one below 65535. -/
theorem toNat_add_one' {value : UInt16} (h : value ≠ 65535) :
    (value + 1).toNat = value.toNat + 1 := by
  have hlt : value.toNat < 65536 := value.toNat_lt
  have hne : value.toNat ≠ 65535 := fun heq => h (UInt16.toNat_inj.mp heq)
  rw [UInt16.toNat_add, UInt16.toNat_one]
  omega

/-- A thread comes back with what it was given. -/
theorem SemOk.cameBack (h : SemOk T total y s) (hT : t ∈ T) {c : Call}
    (ht : y.state.Granted y.waiting (.sem s) t) (hc : c.takes (.sem s))
    (hgranted : ∀ t', y'.state.Granted y'.waiting (.sem s) t' ↔
      y.state.Granted y.waiting (.sem s) t' ∧ t ≠ t')
    (hsem : (y'.state.sem s).value = (y.state.sem s).value)
    (hqueue : y'.state.queue (.sem s) = y.state.queue (.sem s))
    (hlog : y'.log = ⟨t, c, rtEok⟩ :: y.log) : SemOk T total y' s := by
  have hcard := card_filter_or_eq (P := y'.state.Granted y'.waiting (.sem s))
    (Q := y.state.Granted y.waiting (.sem s)) (T := T) (a := t) (fun t' => ?_) (fun ht' => ?_) hT
  · have htally := h.tally
    refine ⟨fun hvalue => ?_, ?_⟩
    · rw [hqueue]
      exact h.free (hsem ▸ hvalue)
    · rw [hsem, hlog, successes_cons hc]
      omega
  · rw [hgranted]
    by_cases heq : t = t'
    · subst heq
      exact iff_of_true ht (.inr rfl)
    · rw [and_iff_left heq, or_iff_left heq]
  · exact ((hgranted t).mp ht').2 rfl

variable {e : IpcEvent} {given : Option (ThreadId × IpcObject)}

/-- A thread takes what is there. -/
theorem SemOk.taken (h : SemOk T total y s) {c : Call} (hvalue : (y.state.sem s).value > 0)
    (hc : c.takes (.sem s))
    (hgranted : ∀ t', y'.state.Granted y'.waiting (.sem s) t' ↔
      y.state.Granted y.waiting (.sem s) t')
    (hsem : (y'.state.sem s).value = (y.state.sem s).value - 1)
    (hqueue : y'.state.queue (.sem s) = y.state.queue (.sem s))
    (hlog : y'.log = ⟨t, c, rtEok⟩ :: y.log) : SemOk T total y' s := by
  have hne : (y.state.sem s).value ≠ 0 := by
    intro hzero
    rw [hzero] at hvalue
    exact absurd hvalue (by decide)
  have hpred := toNat_sub_one' hne
  have htally := h.tally
  refine ⟨fun _ => hqueue.trans (h.free hne), ?_⟩
  rw [hsem, hlog, successes_cons (p := fun _ => Call.takes (.sem s)) hc,
    Finset.filter_congr fun t _ => hgranted t]
  omega

/-- The first thread in the queue is given what is released. -/
theorem SemOk.passed (h : SemOk T total y s) (hwait : y.state.WaitsOk y.waiting) (hT : t ∈ T)
    (hmem : t ∈ y.state.queue (.sem s))
    (hgranted : ∀ t', y'.state.Granted y'.waiting (.sem s) t' ↔
      y.state.Granted y.waiting (.sem s) t' ∨ t = t')
    (hsem : y'.state.sem s = y.state.sem s) (hlog : y'.log = y.log) :
    SemOk T (total + 1) y' s := by
  have hnot : ¬y.state.Granted y.waiting (.sem s) t :=
    not_granted_of_suspended (hwait.queued t _ hmem).1
  have hcard := card_filter_or_eq (T := T) hgranted hnot hT
  have htally := h.tally
  refine ⟨fun hvalue => ?_, ?_⟩
  · rw [hsem] at hvalue
    exact absurd (h.free hvalue ▸ hmem) List.not_mem_nil
  · rw [hsem, hlog, hcard]
    omega

/-- Nobody waits, and the value is increased. -/
theorem SemOk.kept (h : SemOk T total y s) (hfits : (y.state.sem s).value ≠ 65535)
    (hgranted : ∀ t', y'.state.Granted y'.waiting (.sem s) t' ↔
      y.state.Granted y.waiting (.sem s) t')
    (hsem : (y'.state.sem s).value = (y.state.sem s).value + 1)
    (hqueue : y'.state.queue (.sem s) = []) (hlog : y'.log = y.log) :
    SemOk T (total + 1) y' s := by
  have hsucc := toNat_add_one' hfits
  have htally := h.tally
  refine ⟨fun _ => hqueue, ?_⟩
  rw [hsem, hlog, Finset.filter_congr fun t _ => hgranted t]
  omega

/-- A thread goes on after its call. -/
theorem SemOk.goOn (h : SemOk T total y s) (hT : t ∈ T) {c : Call}
    (hawake : (y.state.thread t).suspended = false) (hc : y.waiting t = some c)
    (hgranted : ∀ t', y'.state.Granted y'.waiting (.sem s) t' ↔
      y.state.Granted y.waiting (.sem s) t' ∧ t ≠ t')
    (hsem : (y'.state.sem s).value = (y.state.sem s).value)
    (hqueue : y'.state.queue (.sem s) = y.state.queue (.sem s))
    (hlog : y'.log = ⟨t, c, (c.result (y.state.thread t).error).2⟩ :: y.log) :
    SemOk T total y' s := by
  rcases goOn_cases hawake hc (.sem s) with ⟨ht, htakes, hok⟩ | ⟨ht, hnot⟩
  · rw [hok] at hlog
    exact h.cameBack hT ht htakes hgranted hsem hqueue hlog
  · refine h.congr hsem (fun t' => by rw [hqueue]; exact id) (fun t' => ?_) ?_
    · rw [hgranted]
      exact and_iff_left_of_imp fun ht' heq => ht (heq ▸ ht')
    · rw [hlog]
      exact hnot.elim (successes_cons_of_not (p := fun _ => Call.takes (.sem s)))
        successes_cons_of_failed

/-- A step loses nothing, unless the value wraps around. -/
theorem SemOk.step (hwait : y.state.WaitsOk y.waiting) (h : SemOk T total y s)
    (hT : ∀ t, (y.state.thread t).started → t ∈ T)
    (hfits : e = .semRelease s → y.state.queue (.sem s) = [] → (y.state.sem s).value ≠ 65535)
    (hcase : IpcCase y e given y') :
    SemOk T (total + if e = .semRelease s then 1 else 0) y' s := by
  have hgranted := ipcCase_granted hwait hcase (.sem s)
  -- whoever is in a call is among the threads that are counted
  have hstarted : ∀ t, y.waiting t ≠ none → t ∈ T := fun t hne => hT t (hwait.started t hne)
  -- the sum on the left only grows with a release of this semaphore
  cases hcase with
  | startup _ =>
    simp only [reduceCtorEq, if_false]
    exact h.congr rfl (fun _ => List.mem_of_mem_erase) (fun t => by simpa using hgranted t) rfl
  | refused _ hresult =>
    simp only [reduceCtorEq, if_false]
    exact h.congr rfl (fun _ => id) (fun t => by simpa using hgranted t)
      (successes_cons_of_failed hresult)
  | @semTaken t s' time hcall hvalue =>
    simp only [reduceCtorEq, if_false]
    by_cases hs : s' = s
    · subst hs
      refine h.taken hvalue ?_ (fun t => by simpa using hgranted t) ?_ rfl rfl
      · simp [Call.takes, Call.object]
      · simp
    · refine h.congr ?_ (fun _ => id) (fun t => by simpa using hgranted t)
        (successes_cons_of_not (p := fun _ => Call.takes (.sem s)) ?_)
      · exact congrArg Semaphore.value (Ipc.setSem_of_ne _ _ _ (Ne.symm hs))
      · simp [Call.takes, Call.object, hs]
  | @semWaits t s' time hcall hvalue =>
    simp only [reduceCtorEq, if_false]
    by_cases hs : s' = s
    · subst hs
      -- nothing was taken: the value is 0, and the caller waits from now on
      refine ⟨fun hne => absurd hvalue hne, ?_⟩
      rw [Finset.filter_congr fun t _ => hgranted t]
      simpa using h.tally
    · have hne : IpcObject.sem s ≠ .sem s' := fun heq => hs (IpcObject.sem.inj heq).symm
      refine h.congr rfl (fun t hmem => ?_) (fun t => by simpa using hgranted t) rfl
      rwa [Ipc.park_queue_of_ne _ _ _ _ _ hne] at hmem
  | retaken _ _ =>
    simp only [reduceCtorEq, if_false]
    exact h.congr rfl (fun _ => id) (fun t => by simpa using hgranted t)
      (successes_cons_of_not (p := fun _ => Call.takes (.sem s)) rfl)
  | taken _ _ _ =>
    simp only [reduceCtorEq, if_false]
    exact h.congr rfl (fun _ => id) (fun t => by simpa using hgranted t)
      (successes_cons_of_not (p := fun _ => Call.takes (.sem s)) rfl)
  | @mutexWaits _ m _ _ _ _ =>
    simp only [reduceCtorEq, if_false]
    refine h.congr (by simp) (fun t hmem => ?_) (fun t => by simpa using hgranted t) rfl
    have hne : IpcObject.sem s ≠ .mutex m := by simp
    rw [Ipc.park_queue_of_ne _ _ _ _ _ hne] at hmem
    simpa using hmem
  | releasedOnce _ _ _ =>
    simp only [reduceCtorEq, if_false]
    exact h.congr rfl (fun _ => id) (fun t => by simpa using hgranted t)
      (successes_cons_of_not (p := fun _ => Call.takes (.sem s)) rfl)
  | handed _ _ _ _ =>
    simp only [reduceCtorEq, if_false]
    exact h.congr rfl (fun _ => List.mem_of_mem_erase) (fun t => by simpa using hgranted t)
      (successes_cons_of_not (p := fun _ => Call.takes (.sem s)) rfl)
  | freed _ _ _ _ =>
    simp only [reduceCtorEq, if_false]
    exact h.congr rfl (fun _ => id) (fun t => by simpa using hgranted t)
      (successes_cons_of_not (p := fun _ => Call.takes (.sem s)) rfl)
  | sleep _ =>
    simp only [reduceCtorEq, if_false]
    exact h.congr rfl (fun _ => id) (fun t => by simpa using hgranted t) rfl
  | @semGiven s' t threads hqueue =>
    by_cases hs : s' = s
    · subst hs
      have hmem : t ∈ y.state.queue (.sem s') := hqueue ▸ List.mem_cons_self
      obtain ⟨c, hc, -⟩ := (hwait.queued t _ hmem).2
      rw [if_pos rfl]
      -- the token goes to the first waiter, past the value
      refine h.passed hwait (hstarted t (by rw [hc]; exact Option.some_ne_none c)) hmem (fun t' => ?_) rfl rfl
      simpa using hgranted t'
    · rw [if_neg fun heq => hs (IpcEvent.semRelease.inj heq)]
      exact h.congr rfl (fun _ => List.mem_of_mem_erase) (fun t => by simpa [hs] using hgranted t) rfl
  | @semKept s' hqueue =>
    by_cases hs : s' = s
    · subst hs
      rw [if_pos rfl]
      -- nobody waits, so the value takes the token
      refine h.kept (hfits rfl hqueue) (fun t => by simpa using hgranted t) ?_ hqueue rfl
      simp
    · rw [if_neg fun heq => hs (IpcEvent.semRelease.inj heq)]
      refine h.congr ?_ (fun _ => id) (fun t => by simpa using hgranted t) rfl
      exact congrArg Semaphore.value (Ipc.setSem_of_ne _ _ _ (Ne.symm hs))
  | timeout _ =>
    simp only [reduceCtorEq, if_false]
    exact h.congr rfl (fun _ => List.mem_of_mem_erase) (fun t => by simpa using hgranted t) rfl
  | @goOn t c hawake hc =>
    simp only [reduceCtorEq, if_false]
    refine h.goOn (hstarted t (by rw [hc]; exact Option.some_ne_none c)) hawake hc (fun t' => ?_) rfl rfl rfl
    simpa using hgranted t'

end Step

/-! ## Runs -/

/-- When the semaphore is released while nobody waits, it has not reached the highest value yet. -/
def IpcEvent.valueFits (s : SemId) (y : System Ipc) (e : IpcEvent) : Prop :=
  e = .semRelease s → y.state.queue (.sem s) = [] → (y.state.sem s).value ≠ 65535

def KernelEvent.valueFits (s : SemId) (y : System Kernel) (e : KernelEvent) : Prop :=
  e = .semRelease s → y.state.list (.suspend (.sem s)) = [] → (y.state.sem s).value ≠ 65535

instance (s : SemId) (y : System Kernel) (e : KernelEvent) : Decidable (e.valueFits s y) :=
  inferInstanceAs (Decidable (_ → _ → _))

/-- At first nothing was taken or given. -/
theorem Booted.semOk {i : Ipc} {threads : List ThreadId} (h : Booted i threads)
    (T : Finset ThreadId) (s : SemId) :
    SemOk T (i.sem s).value.toNat ⟨i, fun _ => none, []⟩ s := by
  refine ⟨fun _ => h.queue _, ?_⟩
  rw [Finset.filter_false_of_mem fun t _ => not_granted_of_idle rfl]
  rfl

/-- Whatever the threads do, in any order. -/
theorem ipcRun_semOk {T : Finset ThreadId} {total : ℕ} {y y' : System Ipc} {s : SemId}
    {events : List IpcEvent} (hwait : y.state.WaitsOk y.waiting) (h : SemOk T total y s)
    (hT : ∀ t, (y.state.thread t).started → t ∈ T) (hevents : ∀ t, .startup t ∈ events → t ∈ T)
    (heach : Each ipcStep (fun y e => e.valueFits s y) y events)
    (hrun : ipcRun y events = some y') :
    y'.state.WaitsOk y'.waiting ∧ SemOk T (total + events.count (.semRelease s)) y' s := by
  have hall := run_rule (P := fun before y => y.state.WaitsOk y.waiting ∧
    ((∀ t, .startup t ∈ before → t ∈ T) → (∀ t, (y.state.thread t).started → t ∈ T) ∧
      SemOk T (total + before.count (.semRelease s)) y s))
    (fun before y e y' h hfits hstep => ?_) ⟨hwait, fun _ => ⟨hT, h⟩⟩ heach hrun
  · exact ⟨hall.1, (hall.2 hevents).2⟩
  · obtain ⟨given, hcase⟩ := ipcStep_cases hstep
    refine ⟨ipcStep_waitsOk h.1 hstep, fun hT => ?_⟩
    obtain ⟨hstarted, hsem⟩ := h.2 fun t ht => hT t (List.mem_append_left _ ht)
    refine ⟨fun t ht => ?_, ?_⟩
    · rcases (ipcStep_started_iff h.1 hstep).mp ht with ht | rfl
      · exact hstarted t ht
      · exact hT t List.mem_concat_self
    · have hnext := hsem.step h.1 hstarted hfits hcase
      rw [List.count_append, List.count_singleton, ← Nat.add_assoc]
      simpa only [beq_iff_eq] using hnext

section Runs

variable {k : Kernel} {threads : List ThreadId} (hinit : k.Initial) (hnodup : threads.Nodup)
  (hcurrent : k.currentThread ∉ threads) (hne : threads ≠ []) {events : List KernelEvent}
  {y : System Kernel}

include hinit hnodup hcurrent hne in
/-- As long as its value does not pass 65535, a semaphore has what it had at the start and what was
released into it, less what was taken and what was given to threads that have not come back yet; and
nobody waits while there is something. `T` has all threads that are started. -/
theorem kernelRun_semaphore (s : SemId)
    (heach : Each kernelStep (fun y e => e.valueFits s y) (rtthreadStartup k threads) events)
    (hrun : kernelRun (rtthreadStartup k threads) events = some y) {T : Finset ThreadId}
    (hT : ∀ t ∈ threads, t ∈ T) (hevents : ∀ t, .startup t ∈ events → t ∈ T) :
    y.state.ipc.WaitsOk y.waiting ∧
      SemOk T ((k.sem s).value.toNat + events.count (.semRelease s)) (y.map Kernel.ipc) s := by
  obtain ⟨hok, hbooted⟩ := rtthreadStartup_ok hinit hnodup hcurrent hne
  have heach' : Each ipcStep (fun y e => e.valueFits s y) ((rtthreadStartup k threads).map Kernel.ipc)
      (trace kernelStep (fun y e => e.ipc y) (rtthreadStartup k threads) events) := by
    refine kernelSimulation.each_trace (fun y e e' _ hfits he hrelease => ?_) hok heach hrun
    subst hrelease
    cases e <;> cases he
    exact hfits rfl
  have hcount : (trace kernelStep (fun y e => e.ipc y) (rtthreadStartup k threads) events).count
      (.semRelease s) = events.count (.semRelease s) := by
    refine Simulation.countP_trace (fun y e => ?_) hrun
    cases e <;> simp [KernelEvent.ipc]
  have hstartup : ∀ t, .startup t ∈ trace kernelStep (fun y e => e.ipc y)
      (rtthreadStartup k threads) events → t ∈ T := by
    intro t ht
    obtain ⟨e, he, y, hinterp⟩ := mem_trace ht
    cases e <;> cases hinterp
    exact hevents t he
  have hsem := ipcRun_semOk hbooted.waitsOk (hbooted.semOk T s)
    (fun t ht => hT t ((hbooted.started t).mp ht)) hstartup heach'
    (kernelRun_ipcRun hinit hnodup hcurrent hne hrun)
  rw [hcount, show (rtthreadStartup k threads).state.ipc.sem s =
    (rtthreadStartup k threads).state.sem s from rfl,
    rtthreadStartup_sem hinit hnodup hcurrent hne] at hsem
  exact hsem

/-- The main thread waits for a semaphore; of three releases one is given to it, two are kept, and it
takes one of them when it is back. -/
theorem kernelRun_semaphore_given :
    ∃ y, kernelRun (rtthreadStartup mainAndIdle [1, 2])
      [.call (.semTake 0 (-1)), .schedule, .semRelease 0, .semRelease 0, .schedule, .goOn,
        .semRelease 0, .call (.semTake 0 0)] = some y ∧ SemOk {1, 2} 3 (y.map Kernel.ipc) 0 := by
  obtain ⟨y, hy⟩ := Option.isSome_iff_exists.mp (by decide +kernel :
    (kernelRun (rtthreadStartup mainAndIdle [1, 2])
      [.call (.semTake 0 (-1)), .schedule, .semRelease 0, .semRelease 0, .schedule, .goOn,
        .semRelease 0, .call (.semTake 0 0)]).isSome)
  have hsem : _ ∧ SemOk {1, 2} (0 + 3) (y.map Kernel.ipc) 0 :=
    kernelRun_semaphore mainAndIdle_initial (by decide) (by decide) (by decide) 0 (by decide +kernel)
      hy (by decide) (by simp)
  exact ⟨y, hy, hsem.2⟩

end Runs

end Stm32Board.Rtos
