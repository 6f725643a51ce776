import Stm32Board.Common.Transition
import Stm32Board.Rtos.Lists

/-!
# Events

Reference: `rt_event_send` and `rt_event_recv` of `rt-thread/src/ipc.c`.

A thread waits for all or for one of some bits, and may clear what it receives. A send goes through the
queue and resumes whoever has what he waits for; a thread that clears bits may take them from those behind
it. In any order of steps, nobody waits for bits that are set, and whoever receives has what he asked for
(`eventRun_received`).
-/

namespace Stm32Board.Rtos

open Common.Transition (run_invariant)
open At (rtEok rtError rtEtimeout)

/-- `RT_EVENT_FLAG_AND`, or else `RT_EVENT_FLAG_OR`, and `RT_EVENT_FLAG_CLEAR`. -/
structure EventOption where
  and : Bool
  clear : Bool
deriving DecidableEq, Repr

structure EventCall where
  set : UInt32
  option : EventOption
  timeout : ℤ
deriving DecidableEq, Repr

inductive EventReturned where
  | received (t : ThreadId) (call : EventCall) (recved : UInt32)
  | failed (t : ThreadId) (call : EventCall) (error : ℤ)
deriving DecidableEq, Repr

/-- `struct rt_event` and its threads, with the calls they are in. -/
structure EventSystem where
  set : UInt32
  flag : IpcFlag
  suspendThread : List ThreadId
  eventSet : ThreadId → UInt32
  eventInfo : ThreadId → EventOption
  calling : ThreadId → Option EventCall
  suspended : ThreadId → Bool
  error : ThreadId → ℤ
  currentPriority : ThreadId → UInt8
  log : List EventReturned

/-- The event has what is waited for. -/
def EventOption.Satisfied (option : EventOption) (set event : UInt32) : Prop :=
  if option.and then set &&& event = set else set &&& event ≠ 0

instance (option : EventOption) (set event : UInt32) : Decidable (option.Satisfied set event) := by
  unfold EventOption.Satisfied
  infer_instance

namespace EventSystem

/-- What `rt_event_send` does for one thread of the queue. -/
def visit (y : EventSystem) (t : ThreadId) : EventSystem :=
  let option := y.eventInfo t
  if option.Satisfied (y.eventSet t) y.set then
    let received := if option.and then y.eventSet t else y.eventSet t &&& y.set
    { y with
      eventSet := Function.update y.eventSet t received
      set := if option.clear then y.set &&& ~~~received else y.set
      suspendThread := y.suspendThread.erase t
      suspended := Function.update y.suspended t false }
  else y

def rtEventSend (y : EventSystem) (set : UInt32) : EventSystem × ℤ :=
  if set = 0 then (y, -rtError)
  else (y.suspendThread.foldl visit { y with set := y.set ||| set }, rtEok)

def returns (y : EventSystem) (t : ThreadId) (r : EventReturned) : EventSystem :=
  { y with calling := Function.update y.calling t none, log := y.log ++ [r] }

/-- `rt_event_recv` up to its wait. -/
def rtEventRecv (y : EventSystem) (t : ThreadId) (c : EventCall) : EventSystem :=
  if c.set = 0 then y.returns t (.failed t c (-rtError))
  else
    let y := { y with error := Function.update y.error t rtEok }
    if c.option.Satisfied c.set y.set then
      { y with set := if c.option.clear then y.set &&& ~~~c.set else y.set }.returns t
        (.received t c (y.set &&& c.set))
    else if c.timeout = 0 then
      { y with error := Function.update y.error t (-rtEtimeout) }.returns t
        (.failed t c (-rtEtimeout))
    else
      { y with
        eventSet := Function.update y.eventSet t c.set
        eventInfo := Function.update y.eventInfo t c.option
        suspendThread := insertWaiting y.currentPriority y.flag t y.suspendThread
        calling := Function.update y.calling t (some c)
        suspended := Function.update y.suspended t true }

end EventSystem

/-- An event is sent, a thread makes a call, its time is over, it goes on in its call, or its priority
changes. -/
inductive EventStep where
  | send (set : UInt32)
  | recv (t : ThreadId) (c : EventCall)
  | timeout (t : ThreadId)
  | goOn (t : ThreadId)
  | changePriority (t : ThreadId) (priority : UInt8)
deriving DecidableEq, Repr

def eventStep (y : EventSystem) : EventStep → Option EventSystem
  | .send set => some (y.rtEventSend set).1
  | .recv t c =>
    if y.suspended t = false ∧ (y.calling t).isNone then some (y.rtEventRecv t c) else none
  | .timeout t =>
    if y.suspended t ∧ (y.calling t).any (fun c => c.timeout > 0) then
      some
        { y with
          suspendThread := y.suspendThread.erase t
          suspended := Function.update y.suspended t false
          error := Function.update y.error t (-rtEtimeout) }
    else none
  | .goOn t =>
    if y.suspended t then none
    else
      (y.calling t).map fun c =>
        if y.error t ≠ rtEok then y.returns t (.failed t c (y.error t))
        else y.returns t (.received t c (y.eventSet t))
  | .changePriority t priority =>
    some { y with currentPriority := Function.update y.currentPriority t priority }

def eventRun (y : EventSystem) (events : List EventStep) : Option EventSystem :=
  events.foldlM eventStep y

/-! ## Bits -/

/-- What is satisfied by less bits is satisfied by more. -/
theorem EventOption.Satisfied.of_and {option : EventOption} {set event mask : UInt32}
    (h : option.Satisfied set (event &&& mask)) : option.Satisfied set event := by
  unfold Satisfied at h ⊢
  split_ifs at h ⊢
  · have hall : set &&& event &&& mask = set := (UInt32.and_assoc ..).trans h
    calc set &&& event = set &&& event &&& mask &&& event := by rw [hall]
      _ = set &&& event &&& mask := by
        rw [UInt32.and_assoc, UInt32.and_comm mask event, ← UInt32.and_assoc,
          UInt32.and_assoc set event event, UInt32.and_self]
      _ = set := hall
  · intro hzero
    refine h ?_
    rw [← UInt32.and_assoc, hzero, UInt32.zero_and]

/-- What a thread receives is what it asked for: all of it, or some. -/
def EventCall.Meets (c : EventCall) (recved : UInt32) : Prop :=
  if c.option.and then recved = c.set else recved ≠ 0 ∧ recved &&& c.set = recved

/-- A condition that holds gives what was asked for. -/
theorem EventOption.Satisfied.meets {c : EventCall} {event : UInt32}
    (h : c.option.Satisfied c.set event) : c.Meets (c.set &&& event) := by
  unfold Satisfied at h
  unfold EventCall.Meets
  split_ifs at h ⊢
  · exact h
  · refine ⟨h, ?_⟩
    rw [UInt32.and_comm c.set event, UInt32.and_assoc, UInt32.and_self]

/-! ## What every state of a run keeps -/

/-- Nobody waits for bits that are set, but for those in `rest`, whom a send has not come to yet. -/
structure EventOk (y : EventSystem) (rest : List ThreadId) : Prop where
  nodup : y.suspendThread.Nodup
  mem_iff : ∀ t, t ∈ y.suspendThread ↔ y.suspended t
  waits : ∀ t, y.suspended t → ∃ c, y.calling t = some c ∧ y.eventSet t = c.set ∧
    y.eventInfo t = c.option ∧ y.error t = rtEok ∧ (t ∉ rest → ¬c.option.Satisfied c.set y.set)
  woken : ∀ t c, y.suspended t = false → y.calling t = some c → y.error t = rtEok →
    c.Meets (y.eventSet t)
  log : ∀ t c recved, .received t c recved ∈ y.log → c.Meets recved

section Step

variable {y y' : EventSystem} {t : ThreadId} {rest : List ThreadId} {c : EventCall}

/-- One thread of the suspend list is looked at. -/
theorem EventOk.visit (h : EventOk y (t :: rest)) (ht : t ∉ rest) (hsus : y.suspended t) :
    EventOk (y.visit t) rest := by
  obtain ⟨c, hc, hset, hinfo, herror, -⟩ := h.waits t hsus
  unfold EventSystem.visit
  dsimp only
  rw [hset, hinfo]
  -- a thread whose condition holds is woken with what it asked for
  by_cases hsatisfied : c.option.Satisfied c.set y.set
  · rw [if_pos hsatisfied]
    have hmeets : c.Meets (if c.option.and then c.set else c.set &&& y.set) := by
      by_cases hand : c.option.and
      · rw [if_pos hand, EventCall.Meets, if_pos hand]
      · rw [if_neg hand]
        exact hsatisfied.meets
    refine ⟨h.nodup.erase t, fun u => ?_, fun u hu => ?_, fun u c' hu hc' herror' => ?_, h.log⟩
    · dsimp only
      rw [h.nodup.mem_erase_iff, h.mem_iff]
      by_cases hut : u = t
      · rw [hut, Function.update_self]
        exact iff_of_false (fun h => h.1 rfl) Bool.false_ne_true
      · rw [Function.update_of_ne hut, and_iff_right hut]
    · dsimp only at hu
      have hut : u ≠ t := by
        rintro rfl
        rw [Function.update_self] at hu
        exact Bool.false_ne_true hu
      rw [Function.update_of_ne hut] at hu
      -- the other waiters are as they were
      obtain ⟨c', hc', hset', hinfo', herror', hnot⟩ := h.waits u hu
      refine ⟨c', hc', (Function.update_of_ne hut ..).trans hset', hinfo', herror', fun hu' => ?_⟩
      have hnot' := hnot fun hmem => (List.mem_cons.mp hmem).elim hut hu'
      dsimp only
      -- bits that are cleared cannot make the condition of another waiter true
      by_cases hclear : c.option.clear
      · rw [if_pos hclear]
        exact fun hless => hnot' hless.of_and
      · rw [if_neg hclear]
        exact hnot'
    · dsimp only at hu hc' herror' ⊢
      by_cases hut : u = t
      · rw [hut] at hc' ⊢
        obtain rfl := Option.some.inj (hc.symm.trans hc')
        rw [Function.update_self]
        exact hmeets
      · rw [Function.update_of_ne hut] at hu ⊢
        exact h.woken u c' hu hc' herror'
  · rw [if_neg hsatisfied]
    refine ⟨h.nodup, h.mem_iff, fun u hu => ?_, h.woken, h.log⟩
    obtain ⟨c', hc', hset', hinfo', herror', hnot⟩ := h.waits u hu
    refine ⟨c', hc', hset', hinfo', herror', fun hu' => ?_⟩
    by_cases hut : u = t
    · rw [hut] at hc'
      obtain rfl := Option.some.inj (hc.symm.trans hc')
      exact hsatisfied
    · exact hnot fun hmem => (List.mem_cons.mp hmem).elim hut hu'

/-- The visit of a thread leaves the others as they are. -/
theorem visit_suspended_of_ne {u : ThreadId} (hu : u ≠ t) :
    (y.visit t).suspended u = y.suspended u := by
  unfold EventSystem.visit
  dsimp only
  by_cases hsatisfied : (y.eventInfo t).Satisfied (y.eventSet t) y.set
  · rw [if_pos hsatisfied]
    exact Function.update_of_ne hu ..
  · rw [if_neg hsatisfied]

/-- And so all of them, one after the other. -/
theorem EventOk.visits (h : EventOk y rest) (hnodup : rest.Nodup) (hsus : ∀ t ∈ rest, y.suspended t) :
    EventOk (rest.foldl EventSystem.visit y) [] := by
  induction rest generalizing y with
  | nil => exact h
  | cons t rest ih =>
    obtain ⟨ht, hrest⟩ := List.nodup_cons.mp hnodup
    refine ih (h.visit ht (hsus t List.mem_cons_self)) hrest fun u hu => ?_
    have hut : u ≠ t := by
      rintro rfl
      exact ht hu
    rw [visit_suspended_of_ne hut]
    exact hsus u (List.mem_cons_of_mem t hu)

/-- After `rt_event_send` nobody waits for bits that are set. -/
theorem EventOk.send (h : EventOk y []) (set : UInt32) : EventOk (y.rtEventSend set).1 [] := by
  unfold EventSystem.rtEventSend
  split_ifs
  · exact h
  · have hset : EventOk { y with set := y.set ||| set } y.suspendThread := by
      refine ⟨h.nodup, h.mem_iff, fun t hsus => ?_, h.woken, h.log⟩
      obtain ⟨c, hc, hset, hinfo, herror, -⟩ := h.waits t hsus
      exact ⟨c, hc, hset, hinfo, herror, fun ht => absurd ((h.mem_iff t).mpr hsus) ht⟩
    exact hset.visits h.nodup fun t ht => (h.mem_iff t).mp ht

/-- Another state that differs for `t` only, which is awake, and has no more bits. -/
theorem EventOk.congr (h : EventOk y []) (hawake : y.suspended t = false)
    (hqueue : y'.suspendThread = y.suspendThread) (hsuspended : y'.suspended = y.suspended)
    (hcalling : ∀ u, u ≠ t → y'.calling u = y.calling u)
    (hset : ∀ u, u ≠ t → y'.eventSet u = y.eventSet u)
    (hinfo : ∀ u, u ≠ t → y'.eventInfo u = y.eventInfo u)
    (herror : ∀ u, u ≠ t → y'.error u = y.error u) (hself : y'.calling t = none)
    (hbits : ∃ mask, y'.set = y.set &&& mask)
    (hlog : ∀ t c recved, .received t c recved ∈ y'.log → c.Meets recved) : EventOk y' [] := by
  obtain ⟨mask, hmask⟩ := hbits
  refine ⟨hqueue ▸ h.nodup, fun u => ?_, fun u hu => ?_, fun u c hu hc hok => ?_, hlog⟩
  · rw [hqueue, hsuspended]
    exact h.mem_iff u
  · rw [hsuspended] at hu
    have hut : u ≠ t := by
      rintro rfl
      exact Bool.false_ne_true (hawake.symm.trans hu)
    obtain ⟨c, hc, hset', hinfo', herror', hnot⟩ := h.waits u hu
    refine ⟨c, (hcalling u hut).trans hc, (hset u hut).trans hset', (hinfo u hut).trans hinfo',
      (herror u hut).trans herror', fun hu' hless => hnot hu' ?_⟩
    rw [hmask] at hless
    exact hless.of_and
  · have hut : u ≠ t := by
      rintro rfl
      exact Option.some_ne_none c (hc.symm.trans hself)
    rw [hsuspended] at hu
    rw [hcalling u hut] at hc
    rw [herror u hut] at hok
    rw [hset u hut]
    exact h.woken u c hu hc hok

/-- No bits are taken. -/
theorem and_all (set : UInt32) : set = set &&& ~~~0 := by
  rw [UInt32.not_zero, UInt32.and_neg_one]

/-- A receive that got what it asked for may be logged. -/
theorem EventOk.log_append (h : EventOk y []) {r : EventReturned}
    (hr : ∀ t c recved, r = .received t c recved → c.Meets recved) :
    ∀ t c recved, .received t c recved ∈ y.log ++ [r] → c.Meets recved := by
  intro t c recved hmem
  rcases List.mem_append.mp hmem with hmem | hmem
  · exact h.log t c recved hmem
  · exact hr t c recved (List.mem_singleton.mp hmem).symm

/-- A call returns. -/
theorem EventOk.returns (h : EventOk y []) (hawake : y.suspended t = false) {r : EventReturned}
    (hr : ∀ t c recved, r = .received t c recved → c.Meets recved) {error : ThreadId → ℤ}
    (herror : ∀ u, u ≠ t → error u = y.error u) {set : UInt32} (hset : ∃ mask, set = y.set &&& mask) :
    EventOk ({ y with error := error, set := set }.returns t r) [] := by
  apply h.congr hawake
  · rfl
  · rfl
  · exact fun u hu => Function.update_of_ne hu ..
  · exact fun _ _ => rfl
  · exact fun _ _ => rfl
  · exact herror
  · exact Function.update_self ..
  · exact hset
  · exact h.log_append hr

/-- `rt_event_recv` waits only while its condition does not hold. -/
theorem EventOk.recv (h : EventOk y []) (hawake : y.suspended t = false) (hidle : y.calling t = none) :
    EventOk (y.rtEventRecv t c) [] := by
  have hfailed : ∀ (e : ℤ) t' c' recved, EventReturned.failed t c e = .received t' c' recved →
      c'.Meets recved := fun e t' c' recved heq => absurd heq (by simp)
  unfold EventSystem.rtEventRecv
  dsimp only
  -- `set` of 0 is refused
  by_cases hzero : c.set = 0
  · rw [if_pos hzero]
    exact h.returns hawake (hfailed _) (fun _ _ => rfl) ⟨_, and_all y.set⟩
  rw [if_neg hzero]
  -- what is asked for is there
  by_cases hsatisfied : c.option.Satisfied c.set y.set
  · rw [if_pos hsatisfied]
    apply h.returns hawake
    · rintro t' c' recved heq
      obtain ⟨-, rfl, rfl⟩ := EventReturned.received.inj heq
      rw [UInt32.and_comm]
      exact hsatisfied.meets
    · exact fun u hu => Function.update_of_ne hu ..
    · split_ifs
      · exact ⟨_, rfl⟩
      · exact ⟨_, and_all y.set⟩
  rw [if_neg hsatisfied]
  -- without a time to wait the call fails, else the thread joins the suspend list
  by_cases htime : c.timeout = 0
  · rw [if_pos htime]
    apply h.returns hawake (hfailed _)
    · intro u hu
      exact (Function.update_of_ne hu ..).trans (Function.update_of_ne hu ..)
    · exact ⟨_, and_all y.set⟩
  · rw [if_neg htime]
    have hperm := insertWaiting_perm y.currentPriority y.flag t y.suspendThread
    have hoff : t ∉ y.suspendThread := fun hmem =>
      Bool.false_ne_true (hawake.symm.trans ((h.mem_iff t).mp hmem))
    refine ⟨hperm.nodup_iff.mpr (List.nodup_cons.mpr ⟨hoff, h.nodup⟩), fun u => ?_, fun u hu => ?_,
      fun u c' hu hc' hok => ?_, h.log⟩
    · dsimp only
      rw [hperm.mem_iff, List.mem_cons, h.mem_iff]
      by_cases hut : u = t
      · rw [hut, Function.update_self]
        exact iff_of_true (.inl rfl) rfl
      · rw [Function.update_of_ne hut, or_iff_right hut]
    · dsimp only at hu ⊢
      by_cases hut : u = t
      · rw [hut, Function.update_self, Function.update_self, Function.update_self,
          Function.update_self]
        exact ⟨c, rfl, rfl, rfl, rfl, fun _ => hsatisfied⟩
      · rw [Function.update_of_ne hut] at hu
        rw [Function.update_of_ne hut, Function.update_of_ne hut, Function.update_of_ne hut,
          Function.update_of_ne hut]
        exact h.waits u hu
    · dsimp only at hu hc' hok ⊢
      have hut : u ≠ t := by
        rintro rfl
        rw [Function.update_self] at hu
        exact Bool.false_ne_true hu.symm
      rw [Function.update_of_ne hut] at hu hc' hok ⊢
      exact h.woken u c' hu hc' hok

/-- A timeout takes a thread off the list. -/
theorem EventOk.timeout (h : EventOk y []) (t : ThreadId) :
    EventOk { y with
      suspendThread := y.suspendThread.erase t
      suspended := Function.update y.suspended t false
      error := Function.update y.error t (-rtEtimeout) } [] := by
  refine ⟨h.nodup.erase t, fun u => ?_, fun u hu => ?_, fun u c hu hc hok => ?_, h.log⟩
  · dsimp only
    rw [h.nodup.mem_erase_iff, h.mem_iff]
    by_cases hut : u = t
    · rw [hut, Function.update_self]
      exact iff_of_false (fun h => h.1 rfl) Bool.false_ne_true
    · rw [Function.update_of_ne hut, and_iff_right hut]
  · dsimp only at hu ⊢
    have hut : u ≠ t := by
      rintro rfl
      rw [Function.update_self] at hu
      exact Bool.false_ne_true hu
    rw [Function.update_of_ne hut] at hu ⊢
    exact h.waits u hu
  · dsimp only at hu hc hok
    have hut : u ≠ t := by
      rintro rfl
      rw [Function.update_self] at hok
      exact absurd hok (by decide)
    rw [Function.update_of_ne hut] at hu hok
    exact h.woken u c hu hc hok

theorem EventOk.step (h : EventOk y []) {e : EventStep} (hstep : eventStep y e = some y') :
    EventOk y' [] := by
  unfold eventStep at hstep
  cases e with
  | send set =>
    obtain rfl := Option.some.inj hstep
    exact h.send set
  | recv t c =>
    dsimp only at hstep
    split_ifs at hstep with hmay
    obtain rfl := Option.some.inj hstep
    exact h.recv hmay.1 (Option.isNone_iff_eq_none.mp hmay.2)
  | timeout t =>
    dsimp only at hstep
    split_ifs at hstep
    obtain rfl := Option.some.inj hstep
    exact h.timeout t
  | goOn t =>
    dsimp only at hstep
    split_ifs at hstep with hsus herror
    -- back with an error code
    · obtain ⟨c, -, rfl⟩ := Option.map_eq_some_iff.mp hstep
      exact h.returns (Bool.eq_false_iff.mpr hsus) (fun _ _ _ heq => absurd heq (by simp))
        (fun _ _ => rfl) ⟨_, and_all y.set⟩
    · obtain ⟨c, hc, rfl⟩ := Option.map_eq_some_iff.mp hstep
      -- back with what was received when the thread was woken
      have hawake := Bool.eq_false_iff.mpr hsus
      refine h.returns hawake (fun t' c' recved heq => ?_) (fun _ _ => rfl) ⟨_, and_all y.set⟩
      obtain ⟨-, rfl, rfl⟩ := EventReturned.received.inj heq
      exact h.woken t c hawake hc (not_not.mp herror)
  | changePriority t priority =>
    obtain rfl := Option.some.inj hstep
    exact ⟨h.nodup, h.mem_iff, h.waits, h.woken, h.log⟩

end Step

/-! ## Runs -/

section Runs

/-- `rt_event_init`, with nobody in a call. -/
def eventStart (flag : IpcFlag) (eventSet : ThreadId → UInt32) (eventInfo : ThreadId → EventOption)
    (error : ThreadId → ℤ) (currentPriority : ThreadId → UInt8) : EventSystem :=
  ⟨0, flag, [], eventSet, eventInfo, fun _ => none, fun _ => false, error, currentPriority, []⟩

variable {flag : IpcFlag} {eventSet : ThreadId → UInt32} {eventInfo : ThreadId → EventOption}
  {error : ThreadId → ℤ} {currentPriority : ThreadId → UInt8} {events : List EventStep}
  {y : EventSystem}

/-- So it holds in every state of a run. -/
theorem eventRun_ok
    (hrun : eventRun (eventStart flag eventSet eventInfo error currentPriority) events = some y) :
    EventOk y [] :=
  run_invariant (P := fun y => EventOk y []) (fun _ _ _ h hstep => h.step hstep)
    ⟨List.nodup_nil, fun _ => iff_of_false List.not_mem_nil Bool.false_ne_true,
      fun _ hsus => absurd hsus Bool.false_ne_true,
      fun _ c _ hc => absurd hc.symm (Option.some_ne_none c),
      fun _ _ _ hmem => absurd hmem List.not_mem_nil⟩ hrun

/-- In any order of steps, nobody waits for bits that are set, and whoever receives has all he asked for, or
some of it, as he wanted. -/
theorem eventRun_received
    (hrun : eventRun (eventStart flag eventSet eventInfo error currentPriority) events = some y) :
    (∀ t, y.suspended t → ∃ c, y.calling t = some c ∧ ¬c.option.Satisfied c.set y.set) ∧
      ∀ t c recved, .received t c recved ∈ y.log → c.Meets recved := by
  have hok := eventRun_ok hrun
  refine ⟨fun t hsus => ?_, hok.log⟩
  obtain ⟨c, hc, -, -, -, hnot⟩ := hok.waits t hsus
  exact ⟨c, hc, hnot List.not_mem_nil⟩

/-- The second thread in the queue clears what the third one waits for. -/
theorem eventRun_received_clear :
    ∃ y, eventRun (eventStart .fifo (fun _ => 0) (fun _ => ⟨false, false⟩) (fun _ => 0) fun _ => 10)
      [.recv 1 ⟨5, ⟨true, false⟩, -1⟩, .recv 2 ⟨6, ⟨false, true⟩, -1⟩, .recv 3 ⟨2, ⟨true, false⟩, 7⟩,
        .send 3, .goOn 2, .timeout 3, .goOn 3, .send 4, .goOn 1] = some y ∧
      ((∀ t, y.suspended t → ∃ c, y.calling t = some c ∧ ¬c.option.Satisfied c.set y.set) ∧
        ∀ t c recved, .received t c recved ∈ y.log → c.Meets recved) := by
  obtain ⟨y, hy⟩ := Option.isSome_iff_exists.mp (by decide +kernel :
    (eventRun (eventStart .fifo (fun _ => 0) (fun _ => ⟨false, false⟩) (fun _ => 0) fun _ => 10)
      [.recv 1 ⟨5, ⟨true, false⟩, -1⟩, .recv 2 ⟨6, ⟨false, true⟩, -1⟩, .recv 3 ⟨2, ⟨true, false⟩, 7⟩,
        .send 3, .goOn 2, .timeout 3, .goOn 3, .send 4, .goOn 1]).isSome)
  exact ⟨y, hy, eventRun_received hy⟩

end Runs

end Stm32Board.Rtos
