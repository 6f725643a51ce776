import Stm32Board.Rtos.Timer

/-!
# Timers are alarms

The tick of 32 bits wraps around, and the list of timers is compared by differences of ticks. As long as
the assertion of `rt_timer_start` holds, the timers do what the alarms of a clock do whose time has no end
(`timerRun_sound`).
-/

namespace Stm32Board.Rtos

open Common Common.Alarms
open Common.Transition (run run_append_eq_some run_invariant run_cons_eq_some run_nil_eq_some)

/-- The timers show the clock `c`: the list has its alarms as a queue, with times modulo 2^32. While the
clock rings, alarms may be one tick overdue. -/
structure Timers.Shows (s : Timers) (c : Clock TimerId) : Prop where
  tick_eq : s.rtTick = UInt32.ofNat c.now
  nodup : s.timerList.Nodup
  queue : ∃ queue, Queue c.pending queue ∧ s.timerList = queue.map Prod.fst
  timeout : ∀ t d, (t, d) ∈ c.pending → (s.timer t).timeoutTick = UInt32.ofNat d
  window : ∀ t d, (t, d) ∈ c.pending → c.now ≤ d + 1 ∧ d < c.now + 2147483647
  calm : c.ringing = false → ∀ t d, (t, d) ∈ c.pending → c.now ≤ d

/-- The comparison of the 32-bit ticks sorts as the numbers would: all timers run out within half
the range. -/
theorem insertTimer_eq {timeoutTick : TimerId → UInt32} {t : TimerId} {now d : ℕ}
    {queue : List (TimerId × ℕ)} (ht : timeoutTick t = UInt32.ofNat d)
    (hd : now ≤ d ∧ d < now + 2147483647)
    (hqueue : ∀ p ∈ queue, timeoutTick p.1 = UInt32.ofNat p.2 ∧ now ≤ p.2 + 1 ∧
      p.2 < now + 2147483647) :
    insertTimer timeoutTick t (queue.map Prod.fst) =
      (queue.orderedInsert (fun p q => p.2 < q.2) (t, d)).map Prod.fst := by
  induction queue with
  | nil => rfl
  | cons q queue ih =>
    obtain ⟨hq, hnow, hlate⟩ := hqueue q List.mem_cons_self
    have hhalf : timeoutTick q.1 - timeoutTick t < 2147483647 ↔ d ≤ q.2 := by
      rw [hq, ht]
      exact sub_ofNat_lt_iff (by omega) (by omega)
    have hzero : timeoutTick q.1 - timeoutTick t = 0 ↔ d = q.2 := by
      rw [hq, ht]
      exact sub_ofNat_eq_zero_iff (by omega) (by omega)
    have hrest := ih fun p hp => hqueue p (List.mem_cons_of_mem q hp)
    rw [List.map_cons, insertTimer, List.orderedInsert_cons, hrest,
      show rtTickMax / 2 = 2147483647 from rfl]
    simp only [hzero, hhalf]
    split_ifs
    · omega
    · rfl
    · rfl
    · omega
    · omega
    · rfl

namespace Timers.Shows

variable {s s' : Timers} {c : Clock TimerId} {t : TimerId}

/-- An empty list shows a clock without alarms. -/
theorem start (now : ℕ) {s : Timers} (hlist : s.timerList = [])
    (htick : s.rtTick = UInt32.ofNat now) : s.Shows (Clock.start now) where
  tick_eq := htick
  nodup := hlist ▸ List.nodup_nil
  queue := ⟨[], ⟨List.Pairwise.nil, fun _ => rfl⟩, hlist⟩
  timeout _ _ h := absurd h List.not_mem_nil
  window _ _ h := absurd h List.not_mem_nil
  calm _ _ _ h := absurd h List.not_mem_nil

/-- Only the times of the timers on the list matter. -/
theorem congr (h : s.Shows c) (htick : s'.rtTick = s.rtTick) (hlist : s'.timerList = s.timerList)
    (htimeout : ∀ t d, (t, d) ∈ c.pending → (s'.timer t).timeoutTick = (s.timer t).timeoutTick) :
    s'.Shows c where
  tick_eq := htick.trans h.tick_eq
  nodup := hlist ▸ h.nodup
  queue := hlist ▸ h.queue
  timeout t d hmem := (htimeout t d hmem).trans (h.timeout t d hmem)
  window := h.window
  calm := h.calm

/-- A field other than `timeout_tick` is nothing to the clock. -/
theorem setTimer (h : s.Shows c) (t : TimerId) {f : Timer → Timer}
    (hf : ∀ timer, (f timer).timeoutTick = timer.timeoutTick) : (s.setTimer t f).Shows c :=
  h.congr rfl rfl fun u _ _ => s.setTimer_field Timer.timeoutTick t u hf

/-- A timer that is unlinked has no alarm. -/
theorem remove (h : s.Shows c) (t : TimerId) :
    (rtTimerRemove s t).Shows { c with pending := others t c.pending } where
  tick_eq := h.tick_eq
  nodup := h.nodup.erase t
  queue := by
    obtain ⟨queue, hqueue, hlist⟩ := h.queue
    refine ⟨others t queue, hqueue.others t, ?_⟩
    change s.timerList.erase t = _
    rw [h.nodup.erase_eq_filter, hlist, List.filter_map]
    congr 1
    refine List.filter_congr fun p _ => ?_
    rw [Function.comp_apply, bne, beq_eq_decide, decide_not]
  timeout u d hmem := h.timeout u d (mem_others.mp hmem).2
  window u d hmem := h.window u d (mem_others.mp hmem).2
  calm hringing u d hmem := h.calm hringing u d (mem_others.mp hmem).2

/-- A timer is put on the list, where it is not yet. -/
theorem insert (h : s.Shows c) (ht : ∀ d, (t, d) ∉ c.pending) {d : ℕ}
    (hd : c.now ≤ d ∧ d < c.now + 2147483647) (htick : s'.rtTick = s.rtTick)
    (htimeout : (s'.timer t).timeoutTick = UInt32.ofNat d)
    (hother : ∀ u, u ≠ t → (s'.timer u).timeoutTick = (s.timer u).timeoutTick)
    (hlist : s'.timerList = insertTimer (fun p => (s'.timer p).timeoutTick) t s.timerList) :
    s'.Shows { c with pending := c.pending ++ [(t, d)] } := by
  obtain ⟨queue, hqueue, heq⟩ := h.queue
  have hne : ∀ u e, (u, e) ∈ c.pending → u ≠ t := by
    rintro u e hmem rfl
    exact ht e hmem
  have htimes : ∀ u e, (u, e) ∈ c.pending → (s'.timer u).timeoutTick = UInt32.ofNat e :=
    fun u e hmem => (hother u (hne u e hmem)).trans (h.timeout u e hmem)
  -- sorting the 32-bit ticks is sorting the times
  have hinsert : s'.timerList =
      (queue.orderedInsert (fun p q => p.2 < q.2) (t, d)).map Prod.fst := by
    rw [hlist, heq]
    refine insertTimer_eq htimeout hd fun p hp => ?_
    have hp := hqueue.mem_iff.mp hp
    exact ⟨htimes p.1 p.2 hp, h.window p.1 p.2 hp⟩
  have hcons : ∀ u e, (u, e) ∈ c.pending ++ [(t, d)] → (u, e) ∈ c.pending ∨ u = t ∧ e = d := by
    intro u e hmem
    rcases List.mem_append.mp hmem with hmem | hmem
    · exact .inl hmem
    · exact .inr (Prod.mk.inj (List.mem_singleton.mp hmem))
  -- tick, list, times, window, calm
  refine ⟨htick.trans h.tick_eq, ?_, ⟨_, hqueue.insert (t, d), hinsert⟩, ?_, ?_, ?_⟩
  · have hperm := (List.perm_orderedInsert (fun p q : TimerId × ℕ => p.2 < q.2) (t, d) queue).map
      Prod.fst
    rw [hinsert, hperm.nodup_iff, List.map_cons, ← heq]
    refine List.nodup_cons.mpr ⟨fun hmem => ?_, h.nodup⟩
    rw [heq] at hmem
    obtain ⟨p, hp, hpt⟩ := List.mem_map.mp hmem
    exact hne p.1 p.2 (hqueue.mem_iff.mp hp) hpt
  · intro u e hmem
    rcases hcons u e hmem with hmem | ⟨rfl, rfl⟩
    · exact htimes u e hmem
    · exact htimeout
  · intro u e hmem
    rcases hcons u e hmem with hmem | ⟨rfl, rfl⟩
    · exact h.window u e hmem
    · exact ⟨hd.1.trans (Nat.le_succ _), hd.2⟩
  · intro hringing u e hmem
    rcases hcons u e hmem with hmem | ⟨rfl, rfl⟩
    · exact h.calm hringing u e hmem
    · exact hd.1

/-- The head of the list is the next alarm, and the difference of the ticks says whether its time has
come. -/
theorem head (h : s.Shows c) (hlist : s.timerList.head? = some t) :
    ∃ d, next c.pending = some (t, d) ∧
      (s.rtTick - (s.timer t).timeoutTick < rtTickMax / 2 ↔ d ≤ c.now) := by
  obtain ⟨queue, hqueue, heq⟩ := h.queue
  rw [heq, List.head?_map] at hlist
  cases queue with
  | nil => exact absurd hlist (Option.some_ne_none t).symm
  | cons p queue =>
    obtain ⟨u, d⟩ := p
    obtain rfl : u = t := Option.some.inj hlist
    have hmem : (u, d) ∈ c.pending := hqueue.mem_iff.mp List.mem_cons_self
    have hwindow := h.window u d hmem
    refine ⟨d, hqueue.next_eq, ?_⟩
    rw [h.tick_eq, h.timeout u d hmem]
    exact sub_ofNat_lt_iff (by omega) (by omega)

/-- A timer that is due is the alarm that has to ring now. -/
theorem ring (h : s.Shows c) (hringing : c.ringing = true) (hdue : s.NextDue t) :
    step c (.ring t) = some { c with pending := others t c.pending } := by
  obtain ⟨d, hnext, hd⟩ := h.head hdue.head
  exact step_ring_eq_some.mpr ⟨hringing, ⟨d, hd.mp hdue.due, hnext⟩, rfl⟩

/-- If no timer is due, no alarm has to ring now. -/
theorem later (h : s.Shows c) (hnone : ∀ t, ¬s.NextDue t) : ∀ p ∈ c.pending, c.now < p.2 := by
  intro p hp
  obtain ⟨queue, hqueue, heq⟩ := h.queue
  cases queue with
  | nil => exact absurd (hqueue.mem_iff.mpr hp) List.not_mem_nil
  | cons q queue =>
    have hhead : s.timerList.head? = some q.1 := by rw [heq, List.map_cons, List.head?_cons]
    obtain ⟨d, hnext, hd⟩ := h.head hhead
    have hlt := Nat.lt_of_not_le fun hle => hnone q.1 ⟨hhead, hd.mpr hle⟩
    exact hlt.trans_le ((next_eq_some hnext).1 p hp)

end Timers.Shows

/-- A start takes the timer from the list and puts it where its time belongs. -/
theorem rtTimerStart_eq_some {s s' : Timers} {t : TimerId} (h : rtTimerStart s t = some s') :
    (s.timer t).initTick.toNat < 2147483647 ∧ s'.rtTick = s.rtTick ∧
      s'.timer t = { s.timer t with
        timeoutTick := s.rtTick + (s.timer t).initTick, activated := true } ∧
      (∀ u, u ≠ t → s'.timer u = s.timer u) ∧
      s'.timerList = insertTimer (fun p => (s'.timer p).timeoutTick) t (s.timerList.erase t) := by
  unfold rtTimerStart at h
  dsimp only at h
  split_ifs at h with hfits
  obtain rfl := Option.some.inj h
  rw [Timers.setTimer_timer_self] at hfits
  refine ⟨UInt32.lt_iff_toNat_lt.mp hfits, rfl, ?_, fun u hu => ?_, ?_⟩
  · simp
  · simp [Timers.setTimer_timer_of_ne _ hu]
  · refine congrArg (fun timeoutTick => insertTimer timeoutTick t _) (funext fun p => ?_)
    exact (Timers.setTimer_field Timer.timeoutTick _ t p (f := fun timer => { timer with activated := true })
      fun _ => rfl).symm

/-- The timer that a call is about. -/
def TimerCall.timer : TimerCall → TimerId
  | .start t | .stop t | .setTime t _ | .setOneshot t | .setPeriodic t => t

/-- A call changes no other timer. -/
theorem Timers.call_timer_of_ne {s s' : Timers} {t : TimerId} {call : TimerCall} (ht : call.timer ≠ t)
    (h : s.call call = some s') : s'.timer t = s.timer t := by
  cases call with
  | start u => exact (rtTimerStart_eq_some h).2.2.2.1 t ht.symm
  | stop u =>
    rw [← Option.some.inj h, rtTimerStop]
    split_ifs
    · dsimp only
      exact Timers.setTimer_timer_of_ne _ ht.symm _
    · rfl
  | setTime u tick | setOneshot u | setPeriodic u =>
    rw [← Option.some.inj h]
    exact s.setTimer_timer_of_ne ht.symm _

/-- `rt_timer_start` sets an alarm `init_tick` ticks from now, behind those of the same tick. -/
theorem Timers.Shows.rtTimerStart {s s' : Timers} {c : Clock TimerId} {t : TimerId} (h : s.Shows c)
    (hstart : rtTimerStart s t = some s') :
    s'.Shows { c with
      pending := others t c.pending ++ [(t, c.now + (s.timer t).initTick.toNat)] } := by
  obtain ⟨hinit, htick, htimer, hother, hlist⟩ := rtTimerStart_eq_some hstart
  refine (h.remove t).insert (fun d hmem => (mem_others.mp hmem).1 rfl)
    ⟨Nat.le_add_right _ _, Nat.add_lt_add_left hinit _⟩ htick ?_
    (fun u hu => congrArg Timer.timeoutTick (hother u hu)) hlist
  rw [htimer, h.tick_eq]
  exact ofNat_add_toNat _ _

/-! ## What happens to the alarms -/

/-- The history is one of a clock that was started at `now`, and the timers show this clock. -/
def TimerSystem.Sound {σ : Type} (now : ℕ) (ringing : Bool) (y : TimerSystem σ) : Prop :=
  ∃ c, run Alarms.step (Clock.start now) y.history = some c ∧ y.timers.Shows c ∧ c.ringing = ringing

section Sound

variable {σ : Type} {now : ℕ} {ringing : Bool} {y y' : TimerSystem σ}

/-- What happens next. -/
theorem run_concat {history : List (Event TimerId)} {e : Event TimerId} {c c' : Clock TimerId}
    (hrun : run Alarms.step (Clock.start now) history = some c) (hstep : Alarms.step c e = some c') :
    run Alarms.step (Clock.start now) (history ++ [e]) = some c' :=
  run_append_eq_some.mpr ⟨c, hrun, run_cons_eq_some.mpr ⟨c', hstep, rfl⟩⟩

/-- A call changes the alarms as its events say. -/
theorem Timers.Shows.call {s s' : Timers} {c : Clock TimerId} (h : s.Shows c) {call : TimerCall}
    (hcall : s.call call = some s') :
    ∃ c', run Alarms.step c (call.events s) = some c' ∧ s'.Shows c' ∧ c'.ringing = c.ringing := by
  cases call with
  | start t => exact ⟨_, rfl, h.rtTimerStart hcall, rfl⟩
  | stop t =>
    obtain rfl := Option.some.inj hcall
    simp only [rtTimerStop, TimerCall.events]
    split_ifs
    · dsimp only
      exact ⟨_, rfl, (h.remove t).setTimer t fun _ => rfl, rfl⟩
    · exact ⟨c, rfl, h, rfl⟩
  | setTime t tick | setOneshot t | setPeriodic t =>
    obtain rfl := Option.some.inj hcall
    exact ⟨c, rfl, h.setTimer t fun _ => rfl, rfl⟩

/-- An accepted call keeps timers and clock together. -/
theorem TimerSystem.Sound.call (h : y.Sound now ringing) {call : TimerCall}
    (hcall : y.call call = some y') : y'.Sound now ringing := by
  obtain ⟨c, hrun, hshows, hringing⟩ := h
  obtain ⟨s, hs, rfl⟩ := Option.map_eq_some_iff.mp hcall
  obtain ⟨c', hevents, hshows', hringing'⟩ := hshows.call hs
  exact ⟨c', run_append_eq_some.mpr ⟨c, hrun, hevents⟩, hshows', hringing'.trans hringing⟩

/-- So does a list of calls. -/
theorem TimerSystem.Sound.calls (h : y.Sound now ringing) {cs : List TimerCall}
    (hcalls : y.calls cs = some y') : y'.Sound now ringing :=
  run_invariant (P := TimerSystem.Sound now ringing) (fun _ _ _ h hcall => h.call hcall) h hcalls

variable {timeoutFunc : TimerId → σ → Timers → Option (σ × List TimerCall)} {t : TimerId}

/-- What a timer does that has timed out: it leaves the list, its function makes its calls, and a
periodic one is started again, unless its function has stopped it. -/
theorem runTimer_eq_some (h : runTimer timeoutFunc y t = some y') :
    ∃ host cs m, timeoutFunc t y.host (rtTimerRemove y.timers t) = some (host, cs) ∧
      TimerSystem.calls ⟨host, rtTimerRemove y.timers t, y.history ++ [.ring t]⟩ cs = some m ∧
      let m' : TimerSystem σ :=
        { m with timers := m.timers.setTimer t fun timer => { timer with activated := false } }
      if (m.timers.timer t).periodic ∧ (m.timers.timer t).activated then m'.call (.start t) = some y'
      else m' = y' := by
  unfold runTimer at h
  simp only [Option.bind_eq_bind, Option.bind_eq_some_iff] at h
  obtain ⟨⟨host, cs⟩, hfunc, m, hcalls, h⟩ := h
  refine ⟨host, cs, m, hfunc, hcalls, ?_⟩
  dsimp only
  split_ifs at h ⊢
  · exact h
  · exact Option.some.inj h

/-- The first timer of the list runs out when its time has come. -/
theorem TimerSystem.Sound.removed (h : y.Sound now true) (hdue : y.timers.NextDue t) (host : σ) :
    TimerSystem.Sound now true
      (⟨host, rtTimerRemove y.timers t, y.history ++ [.ring t]⟩ : TimerSystem σ) := by
  obtain ⟨c, hrun, hshows, hringing⟩ := h
  exact ⟨_, run_concat hrun (hshows.ring hringing hdue), hshows.remove t, hringing⟩

/-- So does clearing a flag. -/
theorem TimerSystem.Sound.clear (h : y.Sound now ringing) (t : TimerId) :
    TimerSystem.Sound now ringing
      ({ y with timers := y.timers.setTimer t fun timer => { timer with activated := false } } :
        TimerSystem σ) := by
  obtain ⟨c, hrun, hshows, hringing⟩ := h
  refine ⟨c, hrun, ?_, hringing⟩
  dsimp only
  exact hshows.setTimer t fun _ => rfl

/-- So does a round of `rt_timer_check`: the timer is taken off, its function runs, and a periodic
one is set again. -/
theorem TimerSystem.Sound.runTimer (h : y.Sound now true) (hdue : y.timers.NextDue t)
    (hrun : runTimer timeoutFunc y t = some y') : y'.Sound now true := by
  obtain ⟨host, cs, m, -, hcalls, hm⟩ := runTimer_eq_some hrun
  have hcleared := ((h.removed hdue host).calls hcalls).clear t
  dsimp only at hm
  split_ifs at hm
  · exact hcleared.call hm
  · exact hm ▸ hcleared

/-- The tick goes up on both sides. -/
theorem Timers.Shows.tick {s : Timers} {c : Clock TimerId} (h : s.Shows c)
    (hcalm : c.ringing = false) :
    Timers.Shows { s with rtTick := s.rtTick + 1 } { c with now := c.now + 1, ringing := true } where
  tick_eq := by
    change s.rtTick + 1 = _
    rw [h.tick_eq]
    exact ofNat_add_toNat c.now 1
  nodup := h.nodup
  queue := h.queue
  timeout := h.timeout
  window t d hmem := by
    have hnow := h.calm hcalm t d hmem
    have hwindow := h.window t d hmem
    dsimp only
    omega
  calm hringing := absurd hringing (by simp)

/-- The clock ticks, and rings. -/
def TimerSystem.ticked (y : TimerSystem σ) : TimerSystem σ :=
  ⟨y.host, { y.timers with rtTick := y.timers.rtTick + 1 }, y.history ++ [.tick]⟩

/-- After that the alarms that are due may ring. -/
theorem TimerSystem.Sound.ticked (h : y.Sound now false) : y.ticked.Sound now true := by
  obtain ⟨c, hrun, hshows, hcalm⟩ := h
  refine ⟨_, run_concat hrun (if_neg ?_), hshows.tick hcalm, rfl⟩
  rw [hcalm]
  exact Bool.false_ne_true

/-- When `rt_tick_increase` is through, none is due. -/
theorem TimerSystem.Sound.rtTickIncrease {fuel : ℕ} (h : y.Sound now false)
    (htick : rtTickIncrease timeoutFunc fuel y = some y') : y'.Sound now false := by
  obtain ⟨m, hcheck, rfl⟩ := Option.map_eq_some_iff.mp htick
  obtain ⟨⟨c, hrun, hshows, hringing⟩, hnone⟩ :=
    rtTimerCheck_rule (fun _ _ _ h hdue hrun => h.runTimer hdue hrun) h.ticked hcheck
  have hlater := hshows.later hnone
  refine ⟨_, run_concat hrun (if_pos ⟨hringing, hlater⟩), ?_, rfl⟩
  exact { hshows with
    calm := fun _ t d hmem => (hlater (t, d) hmem).le }

end Sound

/-! ## Runs -/

section Runs

variable {σ : Type} {timeoutFunc : TimerId → σ → Timers → Option (σ × List TimerCall)} {fuel : ℕ}
  {now : ℕ} {y y' : TimerSystem σ} {inputs : List (TimerInput σ)}

/-- No timer has been started yet, and `now` ticks have passed. -/
structure TimerSystem.Initial (now : ℕ) (y : TimerSystem σ) : Prop where
  list : y.timers.timerList = []
  tick : y.timers.rtTick = UInt32.ofNat now
  history : y.history = []

/-- At first no timer is on the list. -/
theorem TimerSystem.Initial.sound (h : y.Initial now) : y.Sound now false :=
  ⟨Clock.start now, h.history ▸ rfl, Timers.Shows.start now h.list h.tick, rfl⟩

/-- Timers and clock stay together over a run. -/
theorem timerRun_sound (h : y.Initial now) (hrun : timerRun timeoutFunc fuel y inputs = some y') :
    y'.Sound now false := by
  refine run_invariant (P := TimerSystem.Sound now false) (fun m e m' hm hstep => ?_) h.sound hrun
  cases e with
  | calls host cs => exact TimerSystem.Sound.calls (y := { m with host := host }) hm hstep
  | tick => exact hm.rtTickIncrease hstep

/-- Whatever is started and stopped, by whom and in what order, and for however long: the timers run out
in the order and at the ticks that they were started for. -/
theorem timerRun_onTime (h : y.Initial now) (hrun : timerRun timeoutFunc fuel y inputs = some y') :
    OnTime y'.history := by
  obtain ⟨c, hhistory, -, -⟩ := timerRun_sound h hrun
  exact onTime_run hhistory

/-- The timer 0 is periodic, with 2 ticks, the others wait for 3; the tick is about to wrap around. -/
def timersAtTheEnd : TimerSystem Unit where
  host := ()
  timers := ⟨fun t => ⟨if t = 0 then 2 else 3, 0, false, t = 0⟩, [], 0xFFFFFFFE⟩
  history := []

/-- The tick starts two below its wrap. -/
theorem timersAtTheEnd_initial : timersAtTheEnd.Initial 4294967294 := ⟨rfl, rfl, rfl⟩

/-- The timer 1 stops the timer 2, the others make no calls. -/
def stopsTwo (t : TimerId) (host : Unit) (_ : Timers) : Option (Unit × List TimerCall) :=
  some (host, if t = 1 then [.stop 2] else [])

/-- Three ticks across the wrap, with a timer function that stops another timer. -/
theorem timerRun_onTime_wrap :
    ∃ y, timerRun stopsTwo 4 timersAtTheEnd
      [.calls () [.start 2, .start 0, .stop 2, .start 1, .start 2], .tick, .tick, .tick] = some y ∧
        y.history = [.set 2 3, .set 0 2, .cancel 2, .set 1 3, .set 2 3, .tick, .quiet, .tick, .ring 0,
          .set 0 2, .quiet, .tick, .ring 1, .cancel 2, .quiet] ∧ OnTime y.history := by
  obtain ⟨y, hy, hhistory⟩ := Option.map_eq_some_iff.mp (by decide +kernel :
    (timerRun stopsTwo 4 timersAtTheEnd
      [.calls () [.start 2, .start 0, .stop 2, .start 1, .start 2], .tick, .tick, .tick]).map
        TimerSystem.history =
      some [.set 2 3, .set 0 2, .cancel 2, .set 1 3, .set 2 3, .tick, .quiet, .tick, .ring 0, .set 0 2,
        .quiet, .tick, .ring 1, .cancel 2, .quiet])
  exact ⟨y, hy, hhistory, timerRun_onTime timersAtTheEnd_initial hy⟩

end Runs

end Stm32Board.Rtos
