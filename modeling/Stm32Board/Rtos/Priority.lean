import Stm32Board.Rtos.Semaphore

/-!
# Priority inheritance

Where no thread takes a second mutex while it owns one, the owner of a mutex has at least the priority
of every thread that waits for it, and its own priority again once it owns none. So a thread that waits
for a mutex with the flag `RT_IPC_FLAG_PRIO` waits for threads of its own priority or a higher one only
(`kernelRun_noInversion`). With `RT_IPC_FLAG_FIFO` the next owner need not have the highest priority.
-/

namespace Stm32Board.Rtos

open Common Common.Transition
open At (rtEok rtError rtEtimeout)

/-- Priorities where owners of mutexes take no other one. -/
structure Ipc.PriorityOk (i : Ipc) (used : List MutexId) : Prop where
  used : ∀ m, (i.mutex m).owner ≠ none → m ∈ used
  base : ∀ t, (∀ m, (i.mutex m).owner ≠ some t) →
    (i.thread t).currentPriority = (i.thread t).initPriority
  owner : ∀ m t, (i.mutex m).owner = some t → (i.thread t).started ∧
    (i.mutex m).originalPriority = (i.thread t).initPriority ∧
      (i.thread t).currentPriority ≤ (i.thread t).initPriority
  unique : ∀ m m' t, (i.mutex m).owner = some t → (i.mutex m').owner = some t → m = m'
  queued : ∀ m t, t ∈ i.queue (.mutex m) → ∀ m', (i.mutex m').owner ≠ some t
  inherit : ∀ m o t, (i.mutex m).flag = .prio → (i.mutex m).owner = some o →
    t ∈ i.queue (.mutex m) → (i.thread o).currentPriority ≤ (i.thread t).currentPriority
  sorted : ∀ m, (i.mutex m).flag = .prio → (i.queue (.mutex m)).Pairwise
    fun t t' => (i.thread t).currentPriority ≤ (i.thread t').currentPriority

namespace Ipc.PriorityOk

variable {i i' : Ipc} {used : List MutexId} {t : ThreadId} {m : MutexId}

/-- Threads start and leave queues, and nothing else happens to mutexes and priorities. -/
theorem congr (h : i.PriorityOk used)
    (hmutex : ∀ m, (i'.mutex m).owner = (i.mutex m).owner ∧ (i'.mutex m).flag = (i.mutex m).flag ∧
      (i'.mutex m).originalPriority = (i.mutex m).originalPriority)
    (hstarted : ∀ t, (i.thread t).started → (i'.thread t).started)
    (hinit : ∀ t, (i'.thread t).initPriority = (i.thread t).initPriority)
    (hcurrent : ∀ t, (i'.thread t).currentPriority = (i.thread t).currentPriority)
    (hqueue : ∀ m, (i'.queue (.mutex m)).Sublist (i.queue (.mutex m))) : i'.PriorityOk used := by
  refine ⟨fun m => ?_, fun t hown => ?_, fun m t hown => ?_, fun m m' t => ?_,
    fun m t hmem m' => ?_, fun m o t => ?_, fun m => ?_⟩
  · rw [(hmutex m).1]
    exact h.used m
  · rw [hcurrent, hinit]
    exact h.base t fun m => (hmutex m).1 ▸ hown m
  · rw [(hmutex m).1] at hown
    rw [(hmutex m).2.2, hinit, hcurrent]
    exact ⟨hstarted t (h.owner m t hown).1, (h.owner m t hown).2⟩
  · rw [(hmutex m).1, (hmutex m').1]
    exact h.unique m m' t
  · rw [(hmutex m').1]
    exact h.queued m t ((hqueue m).mem hmem) m'
  · rw [(hmutex m).1, (hmutex m).2.1, hcurrent, hcurrent]
    exact fun hflag ho hmem => h.inherit m o t hflag ho ((hqueue m).mem hmem)
  · rw [(hmutex m).2.1]
    simp only [hcurrent]
    exact fun hflag => (h.sorted m hflag).sublist (hqueue m)

/-- An owner is in no queue of a mutex. -/
theorem notMem (h : i.PriorityOk used) (howner : (i.mutex m).owner = some t) (m' : MutexId) :
    t ∉ i.queue (.mutex m') :=
  fun hmem => h.queued m' t hmem m howner

/-- The owner of a mutex gets a higher priority. -/
theorem raise (h : i.PriorityOk used) (howner : (i.mutex m).owner = some t) {priority : UInt8}
    (hlt : priority < (i.thread t).currentPriority) : (i.setPriority t priority).PriorityOk used := by
  have hle : ∀ t', ((i.setPriority t priority).thread t').currentPriority ≤
      (i.thread t').currentPriority := by
    intro t'
    by_cases ht : t' = t
    · rw [ht, Ipc.setPriority_currentPriority]
      exact UInt8.le_of_lt hlt
    · rw [i.setPriority_of_ne t priority ht]
      exact UInt8.le_refl _
  have hsame : ∀ m' t', t' ∈ i.queue (.mutex m') →
      (i.setPriority t priority).thread t' = i.thread t' := fun m' t' hmem =>
    i.setPriority_of_ne t priority fun heq => h.notMem howner m' (heq ▸ hmem)
  refine ⟨h.used, fun t' hown => ?_, fun m' t' hown => ?_, h.unique, h.queued,
    fun m' o t' hflag ho hmem => ?_, fun m' hflag => ?_⟩
  · have ht : t' ≠ t := fun heq => hown m (heq ▸ howner)
    rw [i.setPriority_of_ne t priority ht]
    exact h.base t' hown
  · obtain ⟨hstarted, horiginal, hcurrent⟩ := h.owner m' t' hown
    refine ⟨?_, ?_, UInt8.le_trans (hle t') ?_⟩
    · simpa using hstarted
    · simpa using horiginal
    · simpa using hcurrent
  · rw [hsame m' t' hmem]
    exact UInt8.le_trans (hle o) (h.inherit m' o t' hflag ho hmem)
  · refine (h.sorted m' hflag).imp_of_mem fun {a b} ha hb hab => ?_
    rw [hsame m' a ha, hsame m' b hb]
    exact hab

/-- A thread without a mutex waits for one, whose owner has its priority or a higher one. -/
theorem park (h : i.PriorityOk used) (hnone : ∀ m, (i.mutex m).owner ≠ some t)
    (hle : ∀ o, (i.mutex m).owner = some o →
      (i.thread o).currentPriority ≤ (i.thread t).currentPriority) (time : ℤ) :
    (i.park t (.mutex m) (i.mutex m).flag time).PriorityOk used := by
  have hcurrent : ∀ t', ((i.park t (.mutex m) (i.mutex m).flag time).thread t').currentPriority =
      (i.thread t').currentPriority := by simp
  have hqueue : ∀ m' t', t' ∈ (i.park t (.mutex m) (i.mutex m).flag time).queue (.mutex m') →
      t' = t ∧ m' = m ∨ t' ∈ i.queue (.mutex m') := by
    intro m' t' hmem
    by_cases hm : m' = m
    · subst hm
      exact ((Ipc.mem_park_queue ..).mp hmem).imp_left fun ht => ⟨ht, rfl⟩
    · rw [i.park_queue_of_ne _ _ _ _ fun heq => hm (IpcObject.mutex.inj heq)] at hmem
      exact .inr hmem
  -- base, owner, queued, inherit, sorted
  refine ⟨h.used, fun t' hown => ?_, fun m' t' hown => ?_, h.unique, fun m' t' hmem => ?_,
    fun m' o t' hflag ho hmem => ?_, fun m' hflag => ?_⟩
  · simpa using h.base t' hown
  · simpa using h.owner m' t' hown
  · rcases hqueue m' t' hmem with ⟨rfl, -⟩ | hmem
    · exact hnone
    · exact h.queued m' t' hmem
  · rw [hcurrent, hcurrent]
    rcases hqueue m' t' hmem with ⟨rfl, rfl⟩ | hmem
    · exact hle o ho
    · exact h.inherit m' o t' hflag ho hmem
  · simp only [hcurrent]
    by_cases hm : m' = m
    · subst hm
      have hself : (i.park t (.mutex m') (i.mutex m').flag time).queue (.mutex m') =
          insertWaiting (fun s => (i.thread s).currentPriority) (i.mutex m').flag t
            (i.queue (.mutex m')) := Function.update_self ..
      have hprio : (i.mutex m').flag = .prio := hflag
      rw [hself, hprio]
      apply pairwise_orderedInsert _ _ _ (h.sorted m' hflag)
      · exact fun _ _ => UInt8.le_of_lt
      · exact fun _ _ => UInt8.not_lt.mp
      · exact fun _ _ _ => UInt8.le_trans
    · rw [i.park_queue_of_ne _ _ _ _ fun heq => hm (IpcObject.mutex.inj heq)]
      exact h.sorted m' hflag

/-- A thread gives up its mutex, and has its own priority again. -/
theorem disown (h : i.PriorityOk used) (howner : (i.mutex m).owner = some t) {mutex : Mutex}
    (hnone : mutex.owner = none) (hflag : mutex.flag = (i.mutex m).flag) :
    ((i.setPriority t (i.mutex m).originalPriority).setMutex m mutex).PriorityOk used := by
  have horiginal := (h.owner m t howner).2.1
  have hother : ∀ m', m' ≠ m →
      ((i.setPriority t (i.mutex m).originalPriority).setMutex m mutex).mutex m' = i.mutex m' :=
    fun m' hm => Ipc.setMutex_of_ne _ m mutex hm
  have hthread : ∀ t', t' ≠ t → ((i.setPriority t (i.mutex m).originalPriority).setMutex m
      mutex).thread t' = i.thread t' := fun t' ht => i.setPriority_of_ne t _ ht
  have hmem : ∀ m' t', t' ∈ i.queue (.mutex m') → t' ≠ t := fun m' t' hmem heq =>
    h.notMem howner m' (heq ▸ hmem)
  -- what still has an owner is another mutex of another thread
  have hown : ∀ m' t', (((i.setPriority t (i.mutex m).originalPriority).setMutex m mutex).mutex
      m').owner = some t' → m' ≠ m ∧ t' ≠ t ∧ (i.mutex m').owner = some t' := by
    intro m' t' hown
    have hm : m' ≠ m := by
      rintro rfl
      rw [Ipc.setMutex_self, hnone] at hown
      exact absurd hown nofun
    rw [hother m' hm] at hown
    exact ⟨hm, fun ht => hm (h.unique m' m t (ht ▸ hown) howner), hown⟩
  refine ⟨fun m' hne => ?_, fun t' hnot => ?_, fun m' t' hown' => ?_, fun m' m'' t' h' h'' => ?_,
    fun m' t' hmem' m'' hown' => ?_, fun m' o t' hprio ho hmem' => ?_, fun m' hprio => ?_⟩
  · obtain ⟨o, ho⟩ := Option.ne_none_iff_exists'.mp hne
    exact h.used m' (by rw [(hown m' o ho).2.2]; exact nofun)
  · by_cases ht : t' = t
    · rw [ht]
      simp [horiginal]
    · rw [hthread t' ht]
      refine h.base t' fun m' hown' => ?_
      by_cases hm : m' = m
      · exact ht (Option.some.inj ((hm ▸ hown').symm.trans howner))
      · exact hnot m' ((hother m' hm).symm ▸ hown')
  · obtain ⟨hm, ht, hown'⟩ := hown m' t' hown'
    rw [hthread t' ht, hother m' hm]
    exact h.owner m' t' hown'
  · exact h.unique m' m'' t' (hown m' t' h').2.2 (hown m'' t' h'').2.2
  · exact h.queued m' t' hmem' m'' (hown m'' t' hown').2.2
  · obtain ⟨hm, ht, ho'⟩ := hown m' o ho
    rw [hother m' hm] at hprio
    rw [hthread o ht, hthread t' (hmem m' t' hmem')]
    exact h.inherit m' o t' hprio ho' hmem'
  · have hprio' : (i.mutex m').flag = .prio := by
      by_cases hm : m' = m
      · subst hm
        rw [Ipc.setMutex_self] at hprio
        exact hflag ▸ hprio
      · exact hother m' hm ▸ hprio
    refine (h.sorted m' hprio').imp_of_mem fun {a b} ha hb hab => ?_
    rw [hthread a (hmem m' a ha), hthread b (hmem m' b hb)]
    exact hab

/-- A thread without a mutex gets one that nobody owns. -/
theorem adopt (h : i.PriorityOk used) (hnone : (i.mutex m).owner = none)
    (hfree : ∀ m', (i.mutex m').owner ≠ some t) (hm : m ∈ used) (hstarted : (i.thread t).started)
    (howner : (i'.mutex m).owner = some t) (hflag : (i'.mutex m).flag = (i.mutex m).flag)
    (horiginal : (i'.mutex m).originalPriority = (i.thread t).currentPriority)
    (hother : ∀ m', m' ≠ m → i'.mutex m' = i.mutex m')
    (hstarted' : ∀ t, (i.thread t).started → (i'.thread t).started)
    (hinit : ∀ t, (i'.thread t).initPriority = (i.thread t).initPriority)
    (hcurrent : ∀ t, (i'.thread t).currentPriority = (i.thread t).currentPriority)
    (hqueue : ∀ m, (i'.queue (.mutex m)).Sublist (i.queue (.mutex m)))
    (hoff : ∀ m', t ∉ i'.queue (.mutex m'))
    (hle : (i.mutex m).flag = .prio → ∀ t' ∈ i'.queue (.mutex m),
      (i.thread t).currentPriority ≤ (i.thread t').currentPriority) : i'.PriorityOk used := by
  have hbase := h.base t hfree
  -- a mutex has the owner it had, but for this one
  have hown : ∀ m' t', (i'.mutex m').owner = some t' →
      m' = m ∧ t' = t ∨ m' ≠ m ∧ (i.mutex m').owner = some t' := by
    intro m' t' hown
    by_cases hm' : m' = m
    · exact .inl ⟨hm', Option.some.inj ((hm' ▸ hown).symm.trans howner)⟩
    · exact .inr ⟨hm', hother m' hm' ▸ hown⟩
  -- used, base, owner, unique, queued, inherit, sorted
  refine ⟨fun m' hne => ?_, fun t' hnot => ?_, fun m' t' hown' => ?_, fun m' m'' t' h' h'' => ?_,
    fun m' t' hmem' m'' hown' => ?_, fun m' o t' hprio ho hmem' => ?_, fun m' hprio => ?_⟩
  · by_cases hm' : m' = m
    · exact hm' ▸ hm
    · exact h.used m' (hother m' hm' ▸ hne)
  · rw [hcurrent, hinit]
    refine h.base t' fun m' hown' => ?_
    have hm' : m' ≠ m := by
      rintro rfl
      exact absurd (hnone.symm.trans hown') nofun
    exact hnot m' ((hother m' hm').symm ▸ hown')
  · rw [hcurrent, hinit]
    rcases hown m' t' hown' with ⟨rfl, rfl⟩ | ⟨hm', hown'⟩
    · rw [horiginal, hbase]
      exact ⟨hstarted' t' hstarted, rfl, UInt8.le_refl _⟩
    · rw [hother m' hm']
      exact ⟨hstarted' t' (h.owner m' t' hown').1, (h.owner m' t' hown').2⟩
  · rcases hown m' t' h' with ⟨rfl, rfl⟩ | ⟨hm', h'⟩ <;>
      rcases hown m'' t' h'' with ⟨rfl, ht⟩ | ⟨hm'', h''⟩
    · rfl
    · exact absurd h'' (hfree m'')
    · exact absurd (ht ▸ h') (hfree m')
    · exact h.unique m' m'' t' h' h''
  · rcases hown m'' t' hown' with ⟨-, rfl⟩ | ⟨-, hown'⟩
    · exact hoff m' hmem'
    · exact h.queued m' t' ((hqueue m').mem hmem') m'' hown'
  · rw [hcurrent, hcurrent]
    rcases hown m' o ho with ⟨rfl, rfl⟩ | ⟨hm', ho⟩
    · exact hle (hflag ▸ hprio) t' hmem'
    · exact h.inherit m' o t' (hother m' hm' ▸ hprio) ho ((hqueue m').mem hmem')
  · simp only [hcurrent]
    have hprio' : (i.mutex m').flag = .prio := by
      by_cases hm' : m' = m
      · subst hm'
        exact hflag ▸ hprio
      · exact hother m' hm' ▸ hprio
    exact (h.sorted m' hprio').sublist (hqueue m')

/-- A thread waits, and the owner inherits its priority. -/
theorem waits (h : i.PriorityOk used) (hnone : ∀ m, (i.mutex m).owner ≠ some t) (time : ℤ) :
    (((i.setError t rtEok).inherit (i.mutex m).owner (i.thread t).currentPriority).park t (.mutex m)
      (i.mutex m).flag time).PriorityOk used := by
  have herror : (i.setError t rtEok).PriorityOk used :=
    h.congr (fun _ => ⟨rfl, rfl, rfl⟩) (by simp) (by simp) (by simp) fun _ => List.Sublist.refl _
  rcases (i.setError t rtEok).inherit_cases (i.mutex m).owner (i.thread t).currentPriority with
    heq | ⟨o, ho, hlt, heq⟩
  · -- the owner has that priority already
    have hle : ∀ o, (i.mutex m).owner = some o →
        (i.thread o).currentPriority ≤ (i.thread t).currentPriority := by
      intro o ho
      by_contra hgt
      have hpriority : (((i.setError t rtEok).inherit (some o) (i.thread t).currentPriority).thread
          o).currentPriority = (i.thread t).currentPriority := by
        unfold Ipc.inherit
        dsimp only
        rw [if_pos (by simpa using UInt8.not_le.mp hgt)]
        exact Ipc.setPriority_currentPriority ..
      rw [ho] at heq
      rw [heq] at hpriority
      exact hgt (UInt8.le_of_eq (by simpa using hpriority))
    rw [heq]
    exact herror.park hnone (fun o ho => by simpa using hle o ho) time
  · have hne : t ≠ o := fun heq => hnone m (heq ▸ ho)
    rw [heq]
    refine (herror.raise ho hlt).park hnone (fun o' ho' => ?_) time
    obtain rfl := Option.some.inj (ho.symm.trans ho')
    rw [Ipc.setPriority_currentPriority, Ipc.setPriority_of_ne _ _ _ hne]
    simp

/-- The owner hands the mutex to the first thread in its queue. -/
theorem handed (h : i.PriorityOk used) {waiting : ThreadId → Option Call}
    (hwait : i.WaitsOk waiting) (howner : (i.mutex m).owner = some t) {next : ThreadId}
    {threads : List ThreadId} (hqueue : i.queue (.mutex m) = next :: threads) :
    (((i.setPriority t (i.mutex m).originalPriority).setMutex m
      { i.mutex m with
        owner := some next
        originalPriority := ((i.setPriority t
          (i.mutex m).originalPriority).thread next).currentPriority
        hold := 1 }).wake next).PriorityOk used := by
  have hfreed : ((i.setPriority t (i.mutex m).originalPriority).setMutex m
      { i.mutex m with owner := none }).PriorityOk used := h.disown howner rfl rfl
  have hmem : next ∈ i.queue (.mutex m) := hqueue ▸ List.mem_cons_self
  obtain ⟨c, hc, -⟩ := (hwait.queued next _ hmem).2
  have hstarted : (i.thread next).started := hwait.started next (by rw [hc]; exact nofun)
  refine hfreed.adopt (t := next) (m := m) (by simp) (hfreed.queued m next hmem)
    (h.used m (by rw [howner]; exact nofun)) (by simpa using hstarted) (by simp) (by simp) (by simp)
    (fun m' hm => ?_) (fun t' ht' => ?_) (by simp) (by simp) (fun _ => List.erase_sublist)
    (fun m' => (hwait.linked.nodup _).not_mem_erase) fun hflag t' ht' => ?_
  · rw [Ipc.setMutex_of_ne _ _ _ hm]
    exact Ipc.setMutex_of_ne _ _ _ hm
  · by_cases heq : t' = next
    · rw [heq, Ipc.wake_self]
    · rw [Ipc.wake_of_ne _ _ heq]
      exact ht'
  · have hrest : t' ∈ (i.queue (.mutex m)).erase next := ht'
    have hsorted := Eq.subst (motive := fun l => List.Pairwise _ l) hqueue (hfreed.sorted m hflag)
    rw [hqueue, List.erase_cons_head] at hrest
    exact (List.pairwise_cons.mp hsorted).1 t' hrest

end Ipc.PriorityOk

section Step

variable {y y' : System Ipc} {used : List MutexId} {e : IpcEvent}
  {given : Option (ThreadId × IpcObject)}

/-- A thread takes mutexes in use, and none while it owns another one. -/
def IpcEvent.noNesting (used : List MutexId) (y : System Ipc) : IpcEvent → Prop
  | .call t (.mutexTake m _) => m ∈ used ∧ ∀ m' ∈ used, (y.state.mutex m').owner = some t → m' = m
  | _ => True

/-- A step keeps the priorities. -/
theorem Ipc.PriorityOk.step (hwait : y.state.WaitsOk y.waiting) (hmutex : ∀ m, MutexOk y m)
    (h : y.state.PriorityOk used) (hnesting : e.noNesting used y) (hstep : ipcStep y e = some y')
    (hcase : IpcCase y e given y') : y'.state.PriorityOk used := by
  have hinit := ipcStep_initPriority hstep
  have hstarted := fun t => ipcStep_started (t := t) hstep
  -- a thread that takes a mutex it does not own has none
  have hnone : ∀ t m time, e = .call t (.mutexTake m time) → (y.state.mutex m).owner ≠ some t →
      ∀ m', (y.state.mutex m').owner ≠ some t := by
    rintro t m time rfl howner m' hown
    have hm := hnesting.2 m' (h.used m' (by rw [hown]; exact nofun)) hown
    exact howner (hm ▸ hown)
  cases hcase with
  | @startup t hst =>
    refine h.congr (fun _ => ⟨rfl, rfl, rfl⟩) (fun t => hstarted t) hinit (fun t' => ?_)
      fun m => List.erase_sublist
    by_cases ht : t' = t
    · subst ht
      have hbase := h.base t' fun m hown => by
        rw [(h.owner m t' hown).1] at hst
        exact absurd hst nofun
      simp [hbase]
    · simp [Ipc.setPriority_of_ne _ _ _ ht]
  | refused _ _ =>
    exact h.congr (fun _ => ⟨rfl, rfl, rfl⟩) (fun t => hstarted t) hinit (by simp)
      fun _ => List.Sublist.refl _
  | semTaken _ _ =>
    exact h.congr (fun _ => ⟨rfl, rfl, rfl⟩) (fun t => hstarted t) hinit (by simp)
      fun _ => List.Sublist.refl _
  | @semWaits _ s _ _ _ =>
    refine h.congr (fun _ => ⟨rfl, rfl, rfl⟩) (fun t => hstarted t) hinit (by simp) fun m => ?_
    have hne : IpcObject.mutex m ≠ .sem s := nofun
    rw [Ipc.park_queue_of_ne _ _ _ _ _ hne]
    exact List.Sublist.refl _
  | @retaken t m time hcall howner =>
    refine h.congr (fun m' => ?_) (fun t => hstarted t) hinit (by simp)
      fun _ => List.Sublist.refl _
    by_cases hm : m' = m
    · subst hm
      simp
    · simp [Ipc.setMutex_of_ne _ _ _ hm]
  | @taken t m time hcall howner hvalue =>
    have hfree : (y.state.mutex m).owner = none := by
      by_contra hne
      rw [((hmutex m).owned hne).1] at hvalue
      exact absurd hvalue (by decide)
    refine h.adopt hfree (hnone t m time rfl howner) hnesting.1 hcall.started (by simp) (by simp)
      (by simp) (fun m' hm => Ipc.setMutex_of_ne _ _ _ hm) (fun t => hstarted t) hinit (by simp)
      (fun _ => List.Sublist.refl _) (fun m' => hwait.notMem hcall.awake _) fun _ t' hmem => ?_
    exact absurd (((hmutex m).free hfree).2.2 ▸ hmem) List.not_mem_nil
  | @mutexWaits t m time hcall howner hvalue =>
    exact h.waits (hnone t m time rfl howner) time
  | @releasedOnce t m hcall howner hhold =>
    refine h.congr (fun m' => ?_) (fun t => hstarted t) hinit (by simp)
      fun _ => List.Sublist.refl _
    by_cases hm : m' = m
    · subst hm
      simp
    · simp [Ipc.setMutex_of_ne _ _ _ hm]
  | handed _ howner _ hqueue => exact h.handed hwait howner hqueue
  | @freed t m hcall howner hhold hqueue => exact h.disown howner rfl rfl
  | sleep _ =>
    exact h.congr (fun _ => ⟨rfl, rfl, rfl⟩) (fun t => hstarted t) hinit (by simp)
      fun _ => List.Sublist.refl _
  | semGiven _ =>
    exact h.congr (fun _ => ⟨rfl, rfl, rfl⟩) (fun t => hstarted t) hinit (by simp)
      fun _ => List.erase_sublist
  | semKept _ =>
    exact h.congr (fun _ => ⟨rfl, rfl, rfl⟩) (fun t => hstarted t) hinit (by simp)
      fun _ => List.Sublist.refl _
  | timeout _ =>
    exact h.congr (fun _ => ⟨rfl, rfl, rfl⟩) (fun t => hstarted t) hinit (by simp)
      fun _ => List.erase_sublist
  | goOn _ _ =>
    exact h.congr (fun _ => ⟨rfl, rfl, rfl⟩) (fun t => hstarted t) hinit (by simp)
      fun _ => List.Sublist.refl _

end Step

/-! ## Runs -/

/-- At first every thread has its own priority. -/
theorem Booted.priorityOk {i : Ipc} {threads : List ThreadId} (h : Booted i threads)
    (used : List MutexId) : i.PriorityOk used := by
  have hnone : ∀ {m t}, (i.mutex m).owner ≠ some t := by
    intro m t hown
    exact absurd ((h.mutex m).2.1.symm.trans hown) nofun
  have hempty : ∀ {o t}, t ∉ i.queue o := fun {o t} => h.queue o ▸ List.not_mem_nil
  refine ⟨fun m hne => absurd (h.mutex m).2.1 hne, fun t _ => h.priority t,
    fun m t hown => absurd hown hnone, fun m m' t hown => absurd hown hnone,
    fun m t hmem => absurd hmem hempty, fun m o t _ hown => absurd hown hnone, fun m _ => ?_⟩
  rw [h.queue]
  exact List.Pairwise.nil

def KernelEvent.noNesting (used : List MutexId) (y : System Kernel) : KernelEvent → Prop
  | .call (.mutexTake m _) =>
    m ∈ used ∧ ∀ m' ∈ used, (y.state.mutex m').owner = some y.state.currentThread → m' = m
  | _ => True

instance (used : List MutexId) (y : System Kernel) (e : KernelEvent) :
    Decidable (e.noNesting used y) :=
  match e with
  | .call (.mutexTake m _) =>
    inferInstanceAs (Decidable (m ∈ used ∧ ∀ m' ∈ used,
      (y.state.mutex m').owner = some y.state.currentThread → m' = m))
  | .call (.semTake _ _) | .call (.mutexRelease _) | .call .sleep | .startup _ | .semRelease _
  | .timeout _ | .goOn | .tickYield | .schedule => isTrue trivial

/-- Whatever the threads do, in any order. -/
theorem ipcRun_priorityOk {y y' : System Ipc} {used : List MutexId} {events : List IpcEvent}
    (hwait : y.state.WaitsOk y.waiting) (hmutex : ∀ m, MutexOk y m) (h : y.state.PriorityOk used)
    (heach : Each ipcStep (fun y e => e.holdFits y ∧ e.noNesting used y) y events)
    (hrun : ipcRun y events = some y') : y'.state.PriorityOk used := by
  have hall := run_rule (P := fun _ y => y.state.WaitsOk y.waiting ∧ (∀ m, MutexOk y m) ∧
    y.state.PriorityOk used) (fun _ y e y' h hfits hstep => ?_) ⟨hwait, hmutex, h⟩ heach hrun
  · exact hall.2.2
  · obtain ⟨given, hcase⟩ := ipcStep_cases hstep
    refine ⟨ipcStep_waitsOk h.1 hstep, fun m => (h.2.1 m).step h.1 (fun t time he => ?_) hcase,
      h.2.2.step h.1 h.2.1 hfits.2 hstep hcase⟩
    subst he
    exact hfits.1

section Runs

variable {k : Kernel} {threads : List ThreadId} (hinit : k.Initial) (hnodup : threads.Nodup)
  (hcurrent : k.currentThread ∉ threads) (hne : threads ≠ []) {events : List KernelEvent}
  {y : System Kernel} {used : List MutexId}

include hinit hnodup hcurrent hne in
/-- Where no thread takes a second mutex while it owns one, a thread has its own priority whenever it
owns no mutex; and while a thread waits for a mutex with the flag `RT_IPC_FLAG_PRIO` and the owner is
not suspended, `rt_schedule` runs no thread of a lower priority than the waiting one. -/
theorem kernelRun_noInversion
    (heach : Each kernelStep (fun y e => e.holdFits y ∧ e.noNesting used y)
      (rtthreadStartup k threads) events)
    (hrun : kernelRun (rtthreadStartup k threads) events = some y) :
    (∀ t, (∀ m, (y.state.mutex m).owner ≠ some t) →
      (y.state.thread t).currentPriority = (y.state.thread t).initPriority) ∧
    ∀ m o t, (y.state.mutex m).flag = .prio → (y.state.mutex m).owner = some o →
      (y.state.thread o).stat ≠ .suspend → t ∈ y.state.list (.suspend (.mutex m)) →
        ((rtSchedule y.state).thread (rtSchedule y.state).currentThread).currentPriority ≤
          (y.state.thread t).initPriority := by
  obtain ⟨hok, hbooted⟩ := rtthreadStartup_ok hinit hnodup hcurrent hne
  have heach' : Each ipcStep (fun y e => e.holdFits y ∧ e.noNesting used y)
      ((rtthreadStartup k threads).map Kernel.ipc)
      (trace kernelStep (fun y e => e.ipc y) (rtthreadStartup k threads) events) := by
    refine kernelSimulation.each_trace (fun y e e' _ hfits he => ?_) hok heach hrun
    cases e with
    | call c =>
      cases he
      cases c <;> exact hfits
    | _ => cases he <;> exact ⟨trivial, trivial⟩
  have hprio : y.state.ipc.PriorityOk used := ipcRun_priorityOk hbooted.waitsOk hbooted.mutexOk
    (hbooted.priorityOk used) heach' (kernelRun_ipcRun hinit hnodup hcurrent hne hrun)
  have hy := kernelRun_ok hinit hnodup hcurrent hne hrun
  refine ⟨hprio.base, fun m o t hflag howner hawake ht => ?_⟩
  have hwaiter : (y.state.thread o).currentPriority ≤ (y.state.thread t).initPriority := by
    have hbase : (y.state.thread t).currentPriority = (y.state.thread t).initPriority :=
      hprio.base t (hprio.queued m t ht)
    rw [← hbase]
    exact hprio.inherit m o t hflag howner ht
  have hstarted : (y.state.thread o).stat ≠ .init := of_decide_eq_true (hprio.owner m o howner).1
  have hsome : (y.state.thread y.state.currentThread).stat = .running ∨
      ∃ t, (y.state.thread t).stat = .ready := by
    cases hstat : (y.state.thread o).stat with
    | init => exact absurd hstat hstarted
    | ready => exact .inr ⟨o, hstat⟩
    | running => exact .inl (hy.ok.running o hstat ▸ hstat)
    | suspend => exact absurd hstat hawake
  obtain ⟨hok', hipc⟩ := rtSchedule_ok hy.ok
  have hscheduled := rtSchedule_scheduled hy.ok hsome
  -- the owner is the one that runs, or ready
  have hle : ((rtSchedule y.state).thread (rtSchedule y.state).currentThread).currentPriority ≤
      ((rtSchedule y.state).thread o).currentPriority := by
    have hsame : ∀ stat, ((rtSchedule y.state).thread o).stat = stat → stat ≠ .init ∧
        stat ≠ .suspend := by
      rintro stat rfl
      have hipc' := congrArg (fun i : Ipc => i.thread o) hipc
      have hst := congrArg IpcThread.started hipc'
      have hsus := congrArg IpcThread.suspended hipc'
      exact ⟨of_decide_eq_true (hst.trans (decide_eq_true hstarted)),
        of_decide_eq_false (hsus.trans (decide_eq_false hawake))⟩
    cases hstat : ((rtSchedule y.state).thread o).stat with
    | init => exact absurd rfl (hsame _ hstat).1
    | ready => exact hscheduled.highest o hstat
    | running =>
      rw [hok'.running o hstat]
      exact UInt8.le_refl _
    | suspend => exact absurd rfl (hsame _ hstat).2
  rw [currentPriority_of_ipc hipc o] at hle
  exact UInt8.le_trans hle hwaiter

/-- The idle thread owns a mutex when the main thread, which has slept, waits for it: the idle thread
goes on, with the priority of the main thread. -/
theorem kernelRun_noInversion_idle :
    ∃ y, kernelRun (rtthreadStartup mainAndIdle [1, 2])
      [.call .sleep, .schedule, .call (.mutexTake 0 5), .timeout 1, .schedule, .goOn,
        .call (.mutexTake 0 (-1))] = some y ∧
      ((rtSchedule y.state).thread (rtSchedule y.state).currentThread).currentPriority ≤ 10 := by
  obtain ⟨y, hy⟩ := Option.isSome_iff_exists.mp (by decide +kernel :
    (kernelRun (rtthreadStartup mainAndIdle [1, 2])
      [.call .sleep, .schedule, .call (.mutexTake 0 5), .timeout 1, .schedule, .goOn,
        .call (.mutexTake 0 (-1))]).isSome)
  have hfits : Each kernelStep (fun y e => e.holdFits y ∧ e.noNesting [0] y)
      (rtthreadStartup mainAndIdle [1, 2])
      [.call .sleep, .schedule, .call (.mutexTake 0 5), .timeout 1, .schedule, .goOn,
        .call (.mutexTake 0 (-1))] := by decide +kernel
  have hfacts : (kernelRun (rtthreadStartup mainAndIdle [1, 2])
      [.call .sleep, .schedule, .call (.mutexTake 0 5), .timeout 1, .schedule, .goOn,
        .call (.mutexTake 0 (-1))]).all fun y =>
      (y.state.mutex 0).flag = .prio ∧ (y.state.mutex 0).owner = some 2 ∧
        (y.state.thread 2).stat ≠ .suspend ∧ 1 ∈ y.state.list (.suspend (.mutex 0)) ∧
          (y.state.thread 1).initPriority = 10 := by decide +kernel
  rw [hy] at hfacts
  obtain ⟨hflag, howner, hawake, hmem, hten⟩ := of_decide_eq_true hfacts
  have hle := (kernelRun_noInversion mainAndIdle_initial (by decide) (by decide) (by decide)
    hfits hy).2 0 2 1 hflag howner hawake hmem
  exact ⟨y, hy, hten ▸ hle⟩

end Runs

end Stm32Board.Rtos
