import Stm32Board.Rtos.Run

/-!
# Mutual exclusion

A mutex counts the calls of its owner: a thread that has taken it more often than it has released it
is the owner, and there is one at most (`kernelRun_mutualExclusion`). A mutex that nobody owns is free
and nobody waits for it. The count is a byte, so an owner must not take a mutex 256 times.
-/

namespace Stm32Board.Rtos

open Common Common.Transition
open At (rtEok rtError rtEtimeout)

/-! ## Calls that took and calls that released -/

def Call.releases (m : MutexId) : Call → Bool
  | .mutexRelease m' => m' = m
  | _ => false

@[simp] theorem releases_mutexTake (m m' : MutexId) (time : ℤ) :
    Call.releases m (.mutexTake m' time) = false := rfl

@[simp] theorem takes_mutexRelease (o : IpcObject) (m : MutexId) :
    Call.takes o (.mutexRelease m) = false := rfl

/-- How often a thread has come back from a call of some kind with success. -/
def succeeded (call : Call → Bool) (t : ThreadId) (log : List Returned) : ℕ :=
  successes (fun t' c => t' = t ∧ call c) log

section Succeeded

variable {call : Call → Bool} {t t' : ThreadId} {c : Call} {result : ℤ} {log : List Returned}

/-- A call of the thread that returned `RT_EOK` counts. -/
theorem succeeded_cons_self (h : call c) :
    succeeded call t (⟨t, c, rtEok⟩ :: log) = succeeded call t log + 1 :=
  successes_cons (by simp [h])

/-- A call of another thread does not. -/
theorem succeeded_cons_of_ne (h : t' ≠ t) :
    succeeded call t (⟨t', c, result⟩ :: log) = succeeded call t log :=
  successes_cons_of_not (by simp [h])

theorem succeeded_cons_of_not (h : call c = false) :
    succeeded call t (⟨t', c, result⟩ :: log) = succeeded call t log :=
  successes_cons_of_not (by simp [h])

/-- Nor does one that failed. -/
theorem succeeded_cons_of_failed (h : result ≠ rtEok) :
    succeeded call t (⟨t', c, result⟩ :: log) = succeeded call t log :=
  successes_cons_of_failed h

end Succeeded

/-! ## One mutex -/

/-- The owner of a mutex has taken it, or was given it, once for each release that is to come; every
other thread has released it as often as it has taken it. -/
structure MutexOk (y : System Ipc) (m : MutexId) : Prop where
  free : (y.state.mutex m).owner = none →
    (y.state.mutex m).value = 1 ∧ (y.state.mutex m).hold = 0 ∧ y.state.queue (.mutex m) = []
  owned : (y.state.mutex m).owner ≠ none → (y.state.mutex m).value = 0 ∧ (y.state.mutex m).hold ≠ 0
  off : ∀ t, (y.state.mutex m).owner = some t → t ∉ y.state.queue (.mutex m)
  granted : ∀ t, y.state.Granted y.waiting (.mutex m) t → (y.state.mutex m).owner = some t
  tally : ∀ t, succeeded (Call.takes (.mutex m)) t y.log +
      (if y.state.Granted y.waiting (.mutex m) t then 1 else 0) =
    succeeded (Call.releases m) t y.log +
      if (y.state.mutex m).owner = some t then (y.state.mutex m).hold.toNat else 0

section Step

variable {y y' : System Ipc} {m : MutexId}

/-- Other threads and other objects are no matter. -/
theorem MutexOk.congr (h : MutexOk y m) (hmutex : y'.state.mutex m = y.state.mutex m)
    (hqueue : ∀ t, t ∈ y'.state.queue (.mutex m) → t ∈ y.state.queue (.mutex m))
    (hgranted : ∀ t, y'.state.Granted y'.waiting (.mutex m) t ↔
      y.state.Granted y.waiting (.mutex m) t)
    (htakes : ∀ t, succeeded (Call.takes (.mutex m)) t y'.log = succeeded (Call.takes (.mutex m)) t y.log)
    (hreleases : ∀ t, succeeded (Call.releases m) t y'.log = succeeded (Call.releases m) t y.log) :
    MutexOk y' m := by
  refine ⟨fun howner => ?_, fun howner => ?_, fun t howner => ?_, fun t => ?_, fun t => ?_⟩
  · rw [hmutex] at howner ⊢
    obtain ⟨hvalue, hhold, hempty⟩ := h.free howner
    refine ⟨hvalue, hhold, List.eq_nil_iff_forall_not_mem.mpr fun t hmem => ?_⟩
    exact List.not_mem_nil (hempty ▸ hqueue t hmem)
  · rw [hmutex] at howner ⊢
    exact h.owned howner
  · rw [hmutex] at howner
    exact fun hmem => h.off t howner (hqueue t hmem)
  · rw [hgranted, hmutex]
    exact h.granted t
  · rw [hmutex, htakes, hreleases]
    simp only [hgranted]
    exact h.tally t

/-- The byte goes up by one below 255. -/
theorem toNat_add_one {hold : UInt8} (h : hold ≠ 255) : (hold + 1).toNat = hold.toNat + 1 := by
  have hlt : hold.toNat < 256 := hold.toNat_lt
  have hne : hold.toNat ≠ 255 := fun heq => h (UInt8.toNat_inj.mp heq)
  rw [UInt8.toNat_add, UInt8.toNat_one]
  omega

/-- And down by one above 0. -/
theorem toNat_sub_one {hold : UInt8} (h : hold ≠ 0) : hold.toNat = (hold - 1).toNat + 1 := by
  have hne : hold.toNat ≠ 0 := fun heq => h (UInt8.toNat_inj.mp heq)
  rw [UInt8.toNat_sub_of_le _ _ (by rw [UInt8.le_iff_toNat_le, UInt8.toNat_one]; omega),
    UInt8.toNat_one]
  omega

variable {e : IpcEvent} {given : Option (ThreadId × IpcObject)}

/-- The mutex has an owner after the step. -/
theorem MutexOk.ofOwner {o : ThreadId} (howner : (y'.state.mutex m).owner = some o)
    (hvalue : (y'.state.mutex m).value = 0) (hhold : (y'.state.mutex m).hold ≠ 0)
    (hoff : o ∉ y'.state.queue (.mutex m))
    (hgranted : ∀ t, y'.state.Granted y'.waiting (.mutex m) t → o = t)
    (htally : ∀ t, succeeded (Call.takes (.mutex m)) t y'.log +
        (if y'.state.Granted y'.waiting (.mutex m) t then 1 else 0) =
      succeeded (Call.releases m) t y'.log +
        if o = t then (y'.state.mutex m).hold.toNat else 0) : MutexOk y' m := by
  refine ⟨fun hnone => ?_, fun _ => ⟨hvalue, hhold⟩, fun t ht => ?_, fun t ht => ?_, fun t => ?_⟩
  · exact absurd (howner.symm.trans hnone) nofun
  · exact Option.some.inj (howner.symm.trans ht) ▸ hoff
  · rw [howner, hgranted t ht]
  · rw [howner]
    simp only [Option.some.injEq]
    exact htally t

section Owned

variable {t : ThreadId} {time : ℤ} (h : MutexOk y m)
  (hgranted : ∀ t', y'.state.Granted y'.waiting (.mutex m) t' ↔
    y.state.Granted y.waiting (.mutex m) t')
include h hgranted

/-- The owner takes the mutex again. -/
theorem MutexOk.retaken (howner : (y.state.mutex m).owner = some t)
    (hfits : (y.state.mutex m).hold ≠ 255) (howner' : (y'.state.mutex m).owner = some t)
    (hvalue' : (y'.state.mutex m).value = (y.state.mutex m).value)
    (hhold' : (y'.state.mutex m).hold = (y.state.mutex m).hold + 1)
    (hqueue : y'.state.queue (.mutex m) = y.state.queue (.mutex m))
    (hlog : y'.log = ⟨t, .mutexTake m time, rtEok⟩ :: y.log) : MutexOk y' m := by
  have hsucc := toNat_add_one hfits
  have hvalue := (h.owned (by rw [howner]; exact nofun)).1
  refine .ofOwner howner' (hvalue'.trans hvalue) (fun hzero => ?_) ?_ (fun t' ht' => ?_) fun t' => ?_
  · rw [← hhold', hzero, UInt8.toNat_zero] at hsucc
    omega
  · rw [hqueue]
    exact h.off t howner
  · exact Option.some.inj (howner.symm.trans (h.granted t' ((hgranted t').mp ht')))
  · have htally := h.tally t'
    rw [hlog, succeeded_cons_of_not (releases_mutexTake m m time), hhold', hsucc]
    simp only [hgranted]
    by_cases ht : t = t'
    · subst ht
      rw [if_pos howner] at htally
      rw [if_pos rfl, succeeded_cons_self (decide_eq_true rfl)]
      omega
    · rw [if_neg fun heq => ht (Option.some.inj (howner.symm.trans heq))] at htally
      rw [if_neg ht, succeeded_cons_of_ne ht]
      exact htally

/-- A thread takes the mutex, which was free. -/
theorem MutexOk.taken (howner : (y.state.mutex m).owner = none)
    (howner' : (y'.state.mutex m).owner = some t)
    (hvalue' : (y'.state.mutex m).value = (y.state.mutex m).value - 1)
    (hhold' : (y'.state.mutex m).hold = (y.state.mutex m).hold + 1)
    (hqueue : y'.state.queue (.mutex m) = y.state.queue (.mutex m))
    (hlog : y'.log = ⟨t, .mutexTake m time, rtEok⟩ :: y.log) : MutexOk y' m := by
  obtain ⟨hvalue, hhold, hempty⟩ := h.free howner
  rw [hvalue] at hvalue'
  rw [hhold] at hhold'
  have hnone : ∀ t', ¬y.state.Granted y.waiting (.mutex m) t' := fun t' ht' =>
    absurd (howner.symm.trans (h.granted t' ht')) nofun
  refine .ofOwner howner' hvalue' (fun hzero => ?_) ?_ (fun t' ht' => ?_) fun t' => ?_
  · rw [hhold'] at hzero
    exact absurd hzero (by decide)
  · rw [hqueue, hempty]
    exact List.not_mem_nil
  · exact absurd ((hgranted t').mp ht') (hnone t')
  · have htally := h.tally t'
    have hone : ((0 : UInt8) + 1).toNat = 1 := rfl
    rw [if_neg (hnone t'), howner, if_neg (Option.some_ne_none t').symm] at htally
    rw [hlog, succeeded_cons_of_not (releases_mutexTake m m time), hhold', hone,
      if_neg fun ht' => hnone t' ((hgranted t').mp ht')]
    by_cases ht : t = t'
    · subst ht
      rw [if_pos rfl, succeeded_cons_self (decide_eq_true rfl)]
      omega
    · rw [if_neg ht, succeeded_cons_of_ne ht]
      exact htally

/-- The owner releases the mutex, not for the last time. -/
theorem MutexOk.releasedOnce (howner : (y.state.mutex m).owner = some t)
    (hhold : (y.state.mutex m).hold - 1 ≠ 0) (howner' : (y'.state.mutex m).owner = some t)
    (hvalue' : (y'.state.mutex m).value = (y.state.mutex m).value)
    (hhold' : (y'.state.mutex m).hold = (y.state.mutex m).hold - 1)
    (hqueue : y'.state.queue (.mutex m) = y.state.queue (.mutex m))
    (hlog : y'.log = ⟨t, .mutexRelease m, rtEok⟩ :: y.log) : MutexOk y' m := by
  obtain ⟨hvalue, hne⟩ := h.owned (by rw [howner]; exact nofun)
  have hpred := toNat_sub_one hne
  refine .ofOwner howner' (hvalue'.trans hvalue) (hhold' ▸ hhold) ?_ (fun t' ht' => ?_) fun t' => ?_
  · rw [hqueue]
    exact h.off t howner
  · exact Option.some.inj (howner.symm.trans (h.granted t' ((hgranted t').mp ht')))
  · have htally := h.tally t'
    rw [hlog, succeeded_cons_of_not (takes_mutexRelease (.mutex m) m), hhold']
    simp only [hgranted]
    by_cases ht : t = t'
    · subst ht
      rw [if_pos howner, hpred] at htally
      rw [if_pos rfl, succeeded_cons_self (decide_eq_true rfl)]
      omega
    · rw [if_neg fun heq => ht (Option.some.inj (howner.symm.trans heq))] at htally
      rw [if_neg ht, succeeded_cons_of_ne ht]
      exact htally

/-- Another thread waits for the mutex. -/
theorem MutexOk.waits (howner : (y.state.mutex m).owner ≠ some t)
    (hvalue : (y.state.mutex m).value = 0)
    (hmutex : y'.state.mutex m = y.state.mutex m)
    (hqueue : ∀ t', t' ∈ y'.state.queue (.mutex m) → t' = t ∨ t' ∈ y.state.queue (.mutex m))
    (hlog : y'.log = y.log) : MutexOk y' m := by
  obtain ⟨o, ho⟩ := Option.ne_none_iff_exists'.mp fun hnone => by
    have hone := (h.free hnone).1
    rw [hvalue] at hone
    exact absurd hone (by decide)
  refine .ofOwner (hmutex ▸ ho) (hmutex ▸ hvalue) ?_ (fun hmem => ?_) (fun t' ht' => ?_) fun t' => ?_
  · rw [hmutex]
    exact (h.owned (by rw [ho]; exact nofun)).2
  · rcases hqueue o hmem with rfl | hmem
    · exact howner ho
    · exact h.off o ho hmem
  · exact Option.some.inj (ho.symm.trans (h.granted t' ((hgranted t').mp ht')))
  · have htally := h.tally t'
    rw [ho] at htally
    rw [hlog, hmutex]
    simp only [hgranted]
    simpa only [Option.some.injEq] using htally

/-- The owner releases the mutex for the last time, and nobody waits for it. -/
theorem MutexOk.freed (howner : (y.state.mutex m).owner = some t)
    (hhold : (y.state.mutex m).hold - 1 = 0) (hidle : y.waiting t = none)
    (howner' : (y'.state.mutex m).owner = none)
    (hvalue' : (y'.state.mutex m).value = (y.state.mutex m).value + 1)
    (hhold' : (y'.state.mutex m).hold = 0) (hqueue : y'.state.queue (.mutex m) = [])
    (hlog : y'.log = ⟨t, .mutexRelease m, rtEok⟩ :: y.log) : MutexOk y' m := by
  obtain ⟨hvalue, hne⟩ := h.owned (by rw [howner]; exact nofun)
  have hpred := toNat_sub_one hne
  rw [hhold, UInt8.toNat_zero] at hpred
  have hnone : ∀ t', ¬y.state.Granted y.waiting (.mutex m) t' := by
    intro t' ht'
    have ht : t = t' := Option.some.inj (howner.symm.trans (h.granted t' ht'))
    exact not_granted_of_idle hidle (ht ▸ ht')
  refine ⟨fun _ => ⟨?_, hhold', hqueue⟩, fun hne => absurd howner' hne, fun t' ht' => ?_,
    fun t' ht' => ?_, fun t' => ?_⟩
  · rw [hvalue', hvalue]
    rfl
  · exact absurd (howner'.symm.trans ht') nofun
  · exact absurd ((hgranted t').mp ht') (hnone t')
  · have htally := h.tally t'
    rw [if_neg (hnone t')] at htally
    rw [hlog, succeeded_cons_of_not (takes_mutexRelease (.mutex m) m), howner',
      if_neg (Option.some_ne_none t').symm, if_neg fun ht' => hnone t' ((hgranted t').mp ht')]
    by_cases ht : t = t'
    · subst ht
      rw [if_pos howner, hpred] at htally
      rw [succeeded_cons_self (decide_eq_true rfl)]
      exact htally
    · rw [if_neg fun heq => ht (Option.some.inj (howner.symm.trans heq))] at htally
      rw [succeeded_cons_of_ne ht]
      exact htally

omit hgranted in
/-- The owner releases the mutex for the last time, and it goes to a thread that waits for it. -/
theorem MutexOk.handed {next : ThreadId} (howner : (y.state.mutex m).owner = some t)
    (hhold : (y.state.mutex m).hold - 1 = 0) (hidle : y.waiting t = none)
    (hnext : next ∈ y.state.queue (.mutex m))
    (hgranted : ∀ t', y'.state.Granted y'.waiting (.mutex m) t' ↔
      y.state.Granted y.waiting (.mutex m) t' ∨ next = t')
    (howner' : (y'.state.mutex m).owner = some next)
    (hvalue' : (y'.state.mutex m).value = (y.state.mutex m).value)
    (hhold' : (y'.state.mutex m).hold = 1) (hoff : next ∉ y'.state.queue (.mutex m))
    (hlog : y'.log = ⟨t, .mutexRelease m, rtEok⟩ :: y.log) : MutexOk y' m := by
  obtain ⟨hvalue, hne⟩ := h.owned (by rw [howner]; exact nofun)
  have hpred := toNat_sub_one hne
  rw [hhold, UInt8.toNat_zero] at hpred
  -- nobody else has been granted the mutex: it has had an owner
  have hnone : ∀ t', ¬y.state.Granted y.waiting (.mutex m) t' := by
    intro t' ht'
    have ht : t = t' := Option.some.inj (howner.symm.trans (h.granted t' ht'))
    exact not_granted_of_idle hidle (ht ▸ ht')
  have hgranted' : ∀ t', y'.state.Granted y'.waiting (.mutex m) t' ↔ next = t' := fun t' =>
    (hgranted t').trans (or_iff_right (hnone t'))
  have htn : t ≠ next := fun heq => h.off t howner (heq ▸ hnext)
  refine .ofOwner howner' (hvalue'.trans hvalue) (by rw [hhold']; decide) hoff
    (fun t' => (hgranted' t').mp) fun t' => ?_
  have htally := h.tally t'
  rw [if_neg (hnone t')] at htally
  rw [hlog, succeeded_cons_of_not (takes_mutexRelease (.mutex m) m), hhold']
  simp only [hgranted', UInt8.toNat_one]
  -- the last open take of the old owner is closed, the new one has one by the hand-over
  by_cases ht : t = t'
  · subst ht
    rw [if_pos howner, hpred] at htally
    rw [succeeded_cons_self (decide_eq_true rfl), if_neg htn.symm]
    exact htally
  · rw [if_neg fun heq => ht (Option.some.inj (howner.symm.trans heq))] at htally
    rw [succeeded_cons_of_ne ht]
    exact congrArg (· + _) htally

end Owned

/-- A thread comes back with the mutex it was given. -/
theorem MutexOk.cameBack (h : MutexOk y m) {t : ThreadId} {c : Call}
    (ht : y.state.Granted y.waiting (.mutex m) t) (hc : c.takes (.mutex m)) (hr : c.releases m = false)
    (hgranted : ∀ t', y'.state.Granted y'.waiting (.mutex m) t' ↔
      y.state.Granted y.waiting (.mutex m) t' ∧ t ≠ t')
    (hmutex : y'.state.mutex m = y.state.mutex m)
    (hqueue : y'.state.queue (.mutex m) = y.state.queue (.mutex m))
    (hlog : y'.log = ⟨t, c, rtEok⟩ :: y.log) : MutexOk y' m := by
  have howner := h.granted t ht
  obtain ⟨hvalue, hhold⟩ := h.owned (by rw [howner]; exact nofun)
  have hnone : ∀ t', ¬y'.state.Granted y'.waiting (.mutex m) t' := by
    intro t' ht'
    obtain ⟨ht', hne⟩ := (hgranted t').mp ht'
    exact hne (Option.some.inj (howner.symm.trans (h.granted t' ht')))
  refine .ofOwner (hmutex ▸ howner) (hmutex ▸ hvalue) (hmutex ▸ hhold) (hqueue ▸ h.off t howner)
    (fun t' ht' => absurd ht' (hnone t')) fun t' => ?_
  have htally := h.tally t'
  rw [hlog, succeeded_cons_of_not hr, if_neg (hnone t'), hmutex]
  by_cases heq : t = t'
  · subst heq
    rw [if_pos ht, if_pos howner] at htally
    rw [if_pos rfl, succeeded_cons_self hc]
    exact htally
  · have ht' : ¬y.state.Granted y.waiting (.mutex m) t' := fun ht' =>
      heq (Option.some.inj (howner.symm.trans (h.granted t' ht')))
    rw [if_neg ht', if_neg fun howner' => heq (Option.some.inj (howner.symm.trans howner'))] at htally
    rw [if_neg heq, succeeded_cons_of_ne heq]
    exact htally

variable {e : IpcEvent} {given : Option (ThreadId × IpcObject)}

/-- A thread goes on after its call. -/
theorem MutexOk.goOn (hwait : y.state.WaitsOk y.waiting) (h : MutexOk y m) {t : ThreadId} {c : Call}
    (hawake : (y.state.thread t).suspended = false) (hc : y.waiting t = some c)
    (hgranted : ∀ t', y'.state.Granted y'.waiting (.mutex m) t' ↔
      y.state.Granted y.waiting (.mutex m) t' ∧ t ≠ t')
    (hmutex : y'.state.mutex m = y.state.mutex m)
    (hqueue : y'.state.queue (.mutex m) = y.state.queue (.mutex m))
    (hlog : y'.log = ⟨t, c, (c.result (y.state.thread t).error).2⟩ :: y.log) : MutexOk y' m := by
  have hr : c.releases m = false := by
    rcases hwait.waits t c hc with rfl | ⟨o, ho⟩
    · rfl
    · cases c <;> first | rfl | exact absurd ho nofun
  rcases goOn_cases hawake hc (.mutex m) with ⟨ht, htakes, hok⟩ | ⟨ht, hnot⟩
  · rw [hok] at hlog
    exact h.cameBack ht htakes hr hgranted hmutex hqueue hlog
  · refine h.congr hmutex (fun t' => by rw [hqueue]; exact id) (fun t' => ?_) (fun t' => ?_)
      fun t' => ?_ <;> try rw [hlog]
    · rw [hgranted]
      exact and_iff_left_of_imp fun ht' heq => ht (heq ▸ ht')
    · exact hnot.elim succeeded_cons_of_not succeeded_cons_of_failed
    · exact succeeded_cons_of_not hr

/-- A step keeps the count, unless the owner has taken the mutex 255 times. -/
theorem MutexOk.step (hwait : y.state.WaitsOk y.waiting) (h : MutexOk y m)
    (hfits : ∀ t time, e = .call t (.mutexTake m time) → (y.state.mutex m).owner = some t →
      (y.state.mutex m).hold ≠ 255)
    (hcase : IpcCase y e given y') : MutexOk y' m := by
  have hgranted := ipcCase_granted hwait hcase (.mutex m)
  -- what is not about this mutex leaves its fields, its queue and its count of takes alone
  cases hcase with
  | startup _ =>
    exact h.congr rfl (fun _ => List.mem_of_mem_erase) (fun t => by simpa using hgranted t)
      (fun _ => rfl) fun _ => rfl
  | refused _ hresult =>
    exact h.congr rfl (fun _ => id) (fun t => by simpa using hgranted t)
      (fun _ => succeeded_cons_of_failed hresult) fun _ => succeeded_cons_of_failed hresult
  | semTaken _ _ =>
    exact h.congr rfl (fun _ => id) (fun t => by simpa using hgranted t)
      (fun _ => succeeded_cons_of_not rfl) fun _ => succeeded_cons_of_not rfl
  | @semWaits _ s _ _ _ =>
    refine h.congr rfl (fun t hmem => ?_) (fun t => by simpa using hgranted t) (fun _ => rfl)
      fun _ => rfl
    have hne : IpcObject.mutex m ≠ .sem s := nofun
    rwa [Ipc.park_queue_of_ne _ _ _ _ _ hne] at hmem
  | @retaken t m' time hcall howner =>
    by_cases hm : m' = m
    · subst hm
      refine h.retaken (fun t => by simpa using hgranted t) howner (hfits t time rfl howner)
        ?_ ?_ ?_ rfl rfl <;> simp [howner]
    · refine h.congr (Ipc.setMutex_of_ne _ _ _ (Ne.symm hm)) (fun _ => id)
        (fun t => by simpa using hgranted t) (fun _ => succeeded_cons_of_not ?_)
        fun _ => succeeded_cons_of_not rfl
      simp [Call.takes, Call.object, hm]
  | @taken t m' time hcall howner hvalue =>
    by_cases hm : m' = m
    · subst hm
      -- a mutex with an owner has the value 0
      have hnone : (y.state.mutex m').owner = none := by
        by_contra hne
        rw [(h.owned hne).1] at hvalue
        exact absurd hvalue (by decide)
      refine h.taken (fun t => by simpa using hgranted t) hnone ?_ ?_ ?_ rfl rfl <;> simp
    · refine h.congr (Ipc.setMutex_of_ne _ _ _ (Ne.symm hm)) (fun _ => id)
        (fun t => by simpa using hgranted t) (fun _ => succeeded_cons_of_not ?_)
        fun _ => succeeded_cons_of_not rfl
      simp [Call.takes, Call.object, hm]
  | @mutexWaits t m' time hcall howner hvalue =>
    by_cases hm : m' = m
    · subst hm
      refine h.waits (fun t => by simpa using hgranted t) howner hvalue (by simp) (fun t' hmem => ?_)
        rfl
      simpa using (Ipc.mem_park_queue ..).mp hmem
    · refine h.congr (by simp) (fun t hmem => ?_) (fun t => by simpa using hgranted t)
        (fun _ => rfl) fun _ => rfl
      rw [Ipc.park_queue_of_ne _ _ _ _ _ fun heq => hm (IpcObject.mutex.inj heq).symm] at hmem
      simpa using hmem
  | @releasedOnce t m' hcall howner hhold =>
    by_cases hm : m' = m
    · subst hm
      refine h.releasedOnce (fun t => by simpa using hgranted t) howner hhold ?_ ?_ ?_ rfl rfl <;>
        simp [howner]
    · refine h.congr (Ipc.setMutex_of_ne _ _ _ (Ne.symm hm)) (fun _ => id)
        (fun t => by simpa using hgranted t) (fun _ => succeeded_cons_of_not rfl)
        fun _ => succeeded_cons_of_not ?_
      exact decide_eq_false hm
  | @handed t next m' threads hcall howner hhold hqueue =>
    by_cases hm : m' = m
    · subst hm
      -- the next owner has been waiting, so it has no take of its own open
      have hnext : next ∈ y.state.queue (.mutex m') := hqueue ▸ List.mem_cons_self
      refine h.handed howner hhold hcall.idle hnext (fun t => by simpa using hgranted t) ?_ ?_ ?_
        (hwait.linked.nodup _).not_mem_erase rfl <;> simp
    · refine h.congr (Ipc.setMutex_of_ne _ _ _ (Ne.symm hm)) (fun _ => List.mem_of_mem_erase)
        (fun t => ?_) (fun _ => succeeded_cons_of_not rfl) fun _ => succeeded_cons_of_not ?_
      · simpa [hm] using hgranted t
      · exact decide_eq_false hm
  | @freed t m' hcall howner hhold hqueue =>
    by_cases hm : m' = m
    · subst hm
      refine h.freed (fun t => by simpa using hgranted t) howner hhold hcall.idle ?_ ?_ ?_ hqueue
        rfl <;> simp
    · refine h.congr (Ipc.setMutex_of_ne _ _ _ (Ne.symm hm)) (fun _ => id)
        (fun t => by simpa using hgranted t) (fun _ => succeeded_cons_of_not rfl)
        fun _ => succeeded_cons_of_not ?_
      exact decide_eq_false hm
  | sleep hcall =>
    exact h.congr rfl (fun _ => id) (fun t => by simpa using hgranted t) (fun _ => rfl) fun _ => rfl
  | semGiven _ =>
    exact h.congr rfl (fun _ => List.mem_of_mem_erase) (fun t => by simpa using hgranted t)
      (fun _ => rfl) fun _ => rfl
  | semKept _ =>
    exact h.congr rfl (fun _ => id) (fun t => by simpa using hgranted t) (fun _ => rfl) fun _ => rfl
  | timeout _ =>
    exact h.congr rfl (fun _ => List.mem_of_mem_erase) (fun t => by simpa using hgranted t)
      (fun _ => rfl) fun _ => rfl
  | goOn hawake hc =>
    refine h.goOn hwait hawake hc (fun t' => ?_) rfl rfl rfl
    simpa using hgranted t'

end Step

/-- Who has taken a mutex more often than released it owns it. -/
theorem MutexOk.owner_of_lt {y : System Ipc} {m : MutexId} (h : MutexOk y m) {t : ThreadId}
    (hlt : succeeded (Call.releases m) t y.log < succeeded (Call.takes (.mutex m)) t y.log) :
    (y.state.mutex m).owner = some t := by
  have htally := h.tally t
  by_contra hne
  rw [if_neg hne] at htally
  omega

/-- An owner that takes the mutex once more has taken it fewer than 255 times. -/
def IpcEvent.holdFits (y : System Ipc) : IpcEvent → Prop
  | .call t (.mutexTake m _) => (y.state.mutex m).owner = some t → (y.state.mutex m).hold ≠ 255
  | _ => True

def KernelEvent.holdFits (y : System Kernel) : KernelEvent → Prop
  | .call (.mutexTake m _) =>
    (y.state.mutex m).owner = some y.state.currentThread → (y.state.mutex m).hold ≠ 255
  | _ => True

instance (y : System Kernel) (e : KernelEvent) : Decidable (e.holdFits y) :=
  match e with
  | .call (.mutexTake m _) =>
    inferInstanceAs (Decidable ((y.state.mutex m).owner = some y.state.currentThread →
      (y.state.mutex m).hold ≠ 255))
  | .call (.semTake _ _) | .call (.mutexRelease _) | .call .sleep | .startup _ | .semRelease _
  | .timeout _ | .goOn | .tickYield | .schedule => isTrue trivial

theorem Booted.waitsOk {i : Ipc} {threads : List ThreadId} (h : Booted i threads) :
    i.WaitsOk fun _ => none := by
  have hempty : ∀ o t, t ∉ i.queue o := fun o t => h.queue o ▸ List.not_mem_nil
  refine ⟨⟨fun o => ?_, fun t o _ hmem => absurd hmem (hempty o t)⟩,
    fun t o hmem => absurd hmem (hempty o t), fun t hsus => ?_, fun _ hne => absurd rfl hne,
    fun t htimer => ?_, fun _ _ hc => absurd hc nofun⟩
  · rw [h.queue o]
    exact List.nodup_nil
  · rw [h.awake t] at hsus
    exact absurd hsus nofun
  · rw [h.timer t] at htimer
    exact absurd htimer nofun

/-- At first every mutex is free. -/
theorem Booted.mutexOk {i : Ipc} {threads : List ThreadId} (h : Booted i threads) (m : MutexId) :
    MutexOk ⟨i, fun _ => none, []⟩ m := by
  obtain ⟨hvalue, howner, hhold⟩ := h.mutex m
  have hnone : ∀ t, ¬i.Granted (fun _ => none) (.mutex m) t := fun t => not_granted_of_idle rfl
  refine ⟨fun _ => ⟨hvalue, hhold, h.queue _⟩, fun hne => absurd howner hne, fun t ht => ?_,
    fun t ht => absurd ht (hnone t), fun t => ?_⟩
  · exact absurd (howner.symm.trans ht) nofun
  · dsimp only
    rw [howner, if_neg (hnone t), if_neg (Option.some_ne_none t).symm]
    rfl

/-- Whatever the threads do, in any order. -/
theorem ipcRun_mutexOk {y y' : System Ipc} {events : List IpcEvent}
    (hwait : y.state.WaitsOk y.waiting) (h : ∀ m, MutexOk y m)
    (heach : Each ipcStep (fun y e => e.holdFits y) y events)
    (hrun : ipcRun y events = some y') : y'.state.WaitsOk y'.waiting ∧ ∀ m, MutexOk y' m := by
  refine run_rule (P := fun _ y => y.state.WaitsOk y.waiting ∧ ∀ m, MutexOk y m)
    (fun _ y e y' h hfits hstep => ?_) ⟨hwait, h⟩ heach hrun
  obtain ⟨given, hcase⟩ := ipcStep_cases hstep
  refine ⟨ipcStep_waitsOk h.1 hstep, fun m => (h.2 m).step h.1 (fun t time he => ?_) hcase⟩
  subst he
  exact hfits

section Runs

variable {k : Kernel} {threads : List ThreadId} (hinit : k.Initial) (hnodup : threads.Nodup)
  (hcurrent : k.currentThread ∉ threads) (hne : threads ≠ []) {events : List KernelEvent}
  {y : System Kernel}

include hinit hnodup hcurrent hne in
/-- As long as no owner takes a mutex 256 times, a thread that has taken a mutex more often than it has
released it is the owner, so no two threads have it; and nobody waits for a mutex without an owner. -/
theorem kernelRun_mutualExclusion
    (heach : Each kernelStep (fun y e => e.holdFits y) (rtthreadStartup k threads) events)
    (hrun : kernelRun (rtthreadStartup k threads) events = some y) (m : MutexId) :
    MutexOk (y.map Kernel.ipc) m ∧
      ∀ t t', succeeded (Call.releases m) t y.log < succeeded (Call.takes (.mutex m)) t y.log →
        succeeded (Call.releases m) t' y.log < succeeded (Call.takes (.mutex m)) t' y.log → t = t' := by
  obtain ⟨hok, hbooted⟩ := rtthreadStartup_ok hinit hnodup hcurrent hne
  have heach' : Each ipcStep (fun y e => e.holdFits y) ((rtthreadStartup k threads).map Kernel.ipc)
      (trace kernelStep (fun y e => e.ipc y) (rtthreadStartup k threads) events) := by
    refine kernelSimulation.each_trace (fun y e e' _ hfits he => ?_) hok heach hrun
    cases e with
    | call c =>
      cases he
      cases c <;> exact hfits
    | _ => cases he <;> trivial
  have hmutex := (ipcRun_mutexOk hbooted.waitsOk hbooted.mutexOk heach'
    (kernelRun_ipcRun hinit hnodup hcurrent hne hrun)).2 m
  refine ⟨hmutex, fun t t' ht ht' => ?_⟩
  exact Option.some.inj ((hmutex.owner_of_lt ht).symm.trans (hmutex.owner_of_lt ht'))

/-- The main thread takes a mutex twice and sleeps; a second thread waits for the mutex while the idle
thread runs, is given it after the second release, and goes on as its owner. -/
theorem kernelRun_mutualExclusion_handed :
    ∃ y, kernelRun (rtthreadStartup mainAndIdle [1, 3, 2])
      [.call (.mutexTake 0 5), .call (.mutexTake 0 5), .call .sleep, .schedule,
        .call (.mutexTake 0 (-1)), .schedule, .timeout 1, .schedule, .goOn, .call (.mutexRelease 0),
        .call (.mutexRelease 0), .call .sleep, .schedule, .goOn] = some y ∧
      (y.state.thread 2).stat = .ready ∧ (y.state.mutex 0).owner = some 3 ∧
      succeeded (Call.takes (.mutex 0)) 3 y.log = 1 ∧ MutexOk (y.map Kernel.ipc) 0 := by
  obtain ⟨y, hy, hstate⟩ := Option.map_eq_some_iff.mp (by decide +kernel :
    (kernelRun (rtthreadStartup mainAndIdle [1, 3, 2])
      [.call (.mutexTake 0 5), .call (.mutexTake 0 5), .call .sleep, .schedule,
        .call (.mutexTake 0 (-1)), .schedule, .timeout 1, .schedule, .goOn, .call (.mutexRelease 0),
        .call (.mutexRelease 0), .call .sleep, .schedule, .goOn]).map (fun y =>
          ((y.state.thread 2).stat, (y.state.mutex 0).owner,
            succeeded (Call.takes (.mutex 0)) 3 y.log)) = some (.ready, some 3, 1))
  obtain ⟨hstat, hrest⟩ := Prod.mk.inj hstate
  obtain ⟨howner, hlog⟩ := Prod.mk.inj hrest
  exact ⟨y, hy, hstat, howner, hlog, (kernelRun_mutualExclusion mainAndIdle_initial (by decide)
    (by decide) (by decide) (by decide +kernel) hy 0).1⟩

end Runs

end Stm32Board.Rtos
