import Stm32Board.Rtos.Alarm

/-!
# A tick ends

The loop of `rt_timer_check` goes on as long as there is a timer whose time has come, and a function may
start timers. It ends if every timer waits for at least one tick (`timerRun_tick_returns`). The assertion
of `rt_timer_start` does not ask for that: with a periodic timer that waits for none the tick never ends
(`timerRun_tick_hangs`).
-/

namespace Stm32Board.Rtos

open Common Common.Alarms
open Common.Transition (run run_append_eq_some run_cons_eq_some run_nil_eq_some run_rule
  each_of_forall)

/-- What the assertion asks of a timer, which also has to wait. -/
def Timer.Fits (timer : Timer) : Prop :=
  timer.initTick ≠ 0 ∧ timer.initTick < rtTickMax / 2

def Timers.Fits (s : Timers) : Prop := ∀ t, (s.timer t).Fits

def TimerCall.Fits : TimerCall → Prop
  | .setTime _ tick => tick ≠ 0 ∧ tick < rtTickMax / 2
  | .start _ | .stop _ | .setOneshot _ | .setPeriodic _ => True

/-- While `I` holds, the function of a timer that is due returns, and sets no other times than such. -/
structure TimeoutsFit {σ : Type} (I : TimerSystem σ → Prop)
    (timeoutFunc : TimerId → σ → Timers → Option (σ × List TimerCall)) : Prop where
  returns : ∀ y t, I y → y.timers.NextDue t → ∃ host cs,
    timeoutFunc t y.host (rtTimerRemove y.timers t) = some (host, cs) ∧ ∀ c ∈ cs, c.Fits
  keep : ∀ y t y', I y → y.timers.NextDue t → runTimer timeoutFunc y t = some y' → I y'

/-- A timer with a time that fits may be changed to another one. -/
theorem Timers.Fits.setTimer {s : Timers} (h : s.Fits) (t : TimerId) {f : Timer → Timer}
    (hf : (f (s.timer t)).Fits) : (s.setTimer t f).Fits := by
  intro u
  by_cases hu : u = t
  · rw [hu, s.setTimer_timer_self]
    exact hf
  · rw [s.setTimer_timer_of_ne hu]
    exact h u

/-- A call with a time that fits is accepted and keeps all times in range. -/
theorem Timers.Fits.call {s : Timers} (h : s.Fits) {call : TimerCall} (hcall : call.Fits) :
    ∃ s', s.call call = some s' ∧ s'.Fits := by
  cases call with
  | start t =>
    have hstart : (Rtos.rtTimerStart s t).isSome := by
      unfold Rtos.rtTimerStart
      dsimp only
      rw [if_pos]
      · rfl
      · rw [setTimer_timer_self]
        exact (h t).2
    obtain ⟨s', hs'⟩ := Option.isSome_iff_exists.mp hstart
    refine ⟨s', hs', fun u => ?_⟩
    obtain ⟨-, -, htimer, hother, -⟩ := rtTimerStart_eq_some hs'
    by_cases hu : u = t
    · rw [hu, htimer]
      exact h t
    · rw [hother u hu]
      exact h u
  | stop t =>
    refine ⟨_, rfl, ?_⟩
    unfold rtTimerStop
    split_ifs
    · dsimp only
      apply Timers.Fits.setTimer
      · exact h
      · exact h t
    · exact h
  | setTime t tick => exact ⟨_, rfl, h.setTimer t hcall⟩
  | setOneshot t | setPeriodic t => exact ⟨_, rfl, h.setTimer t (h t)⟩

namespace TimerSystem

variable {σ : Type} {now k : ℕ} {y : TimerSystem σ}

/-- What one call keeps that fits, all keep. -/
theorem calls_returns {P : TimerSystem σ → Prop}
    (hcall : ∀ y c, P y → c.Fits → ∃ y', y.call c = some y' ∧ P y') (hy : P y) {cs : List TimerCall}
    (hcs : ∀ c ∈ cs, c.Fits) : ∃ y', y.calls cs = some y' ∧ P y' := by
  induction cs generalizing y with
  | nil => exact ⟨y, rfl, hy⟩
  | cons c cs ih =>
    obtain ⟨m, hm, hP⟩ := hcall y c hy (hcs c List.mem_cons_self)
    obtain ⟨y', hy', hP'⟩ := ih hP fun c' hc' => hcs c' (List.mem_cons_of_mem c hc')
    exact ⟨y', run_cons_eq_some.mpr ⟨m, hm, hy'⟩, hP'⟩

/-- The clock rings, at most `k` alarms have to ring, and none was set for no ticks. -/
structure Ringing (now k : ℕ) (y : TimerSystem σ) : Prop where
  alarms : ∃ c, run Alarms.step (Clock.start now) y.history = some c ∧ y.timers.Shows c ∧
    c.ringing = true ∧ c.due ≤ k
  fits : y.timers.Fits

/-- It leaves the number of due timers as it is, or lowers it. -/
theorem Ringing.call (h : y.Ringing now k) {call : TimerCall} (hcall : call.Fits) :
    ∃ y', y.call call = some y' ∧ y'.Ringing now k := by
  obtain ⟨c, hrun, hshows, hringing, hdue⟩ := h.alarms
  obtain ⟨s, hs, hfits⟩ := h.fits.call hcall
  obtain ⟨c', hevents, hshows', hringing'⟩ := hshows.call hs
  refine ⟨_, congrArg (Option.map _) hs, ⟨c', run_append_eq_some.mpr ⟨c, hrun, hevents⟩, hshows',
    hringing'.trans hringing, le_trans ?_ hdue⟩, hfits⟩
  cases call with
  | start t =>
    obtain ⟨m, hm, hnil⟩ := run_cons_eq_some.mp hevents
    rw [← run_nil_eq_some.mp hnil]
    exact due_set_le hm fun hzero => (h.fits t).1 (UInt32.toNat_inj.mp hzero)
  | stop t =>
    rw [TimerCall.events] at hevents
    split_ifs at hevents
    · obtain ⟨m, hm, hnil⟩ := run_cons_eq_some.mp hevents
      rw [← run_nil_eq_some.mp hnil, ← Option.some.inj hm]
      exact due_others_le c t
    · rw [← run_nil_eq_some.mp hevents]
  | setTime t tick | setOneshot t | setPeriodic t => rw [← run_nil_eq_some.mp hevents]

/-- So does a list of calls. -/
theorem Ringing.calls (h : y.Ringing now k) {cs : List TimerCall} (hcs : ∀ c ∈ cs, c.Fits) :
    ∃ y', y.calls cs = some y' ∧ y'.Ringing now k :=
  calls_returns (fun _ _ hm hc => hm.call hc) h hcs

variable {timeoutFunc : TimerId → σ → Timers → Option (σ × List TimerCall)}

/-- One timer less has to run out. -/
theorem Ringing.runTimer {I : TimerSystem σ → Prop} (hfunc : TimeoutsFit I timeoutFunc)
    (h : y.Ringing now k) (hI : I y) {t : TimerId} (hdue : y.timers.NextDue t) :
    ∃ y', runTimer timeoutFunc y t = some y' ∧ ∃ j < k, y'.Ringing now j := by
  obtain ⟨c, hrun, hshows, hringing, hk⟩ := h.alarms
  obtain ⟨host, cs, hhost, hcs⟩ := hfunc.returns y t hI hdue
  have hring := hshows.ring hringing hdue
  have hremoved : TimerSystem.Ringing now (Clock.due { c with pending := others t c.pending })
      (⟨host, rtTimerRemove y.timers t, y.history ++ [.ring t]⟩ : TimerSystem σ) :=
    ⟨⟨_, run_concat hrun hring, hshows.remove t, hringing, le_rfl⟩, h.fits⟩
  obtain ⟨m, hm, hcalled⟩ := hremoved.calls hcs
  have hcleared : TimerSystem.Ringing now (Clock.due { c with pending := others t c.pending })
      ({ m with timers := m.timers.setTimer t fun timer => { timer with activated := false } } :
        TimerSystem σ) := by
    obtain ⟨c', hrun', hshows', halarms⟩ := hcalled.alarms
    refine ⟨⟨c', hrun', ?_, halarms⟩, ?_⟩
    · dsimp only
      exact hshows'.setTimer t fun _ => rfl
    · dsimp only
      exact hcalled.fits.setTimer t (hcalled.fits t)
  have hlt := (due_ring_lt hring).trans_le hk
  unfold Rtos.runTimer
  simp only [Option.bind_eq_bind, hhost, hm, Option.bind_some]
  split_ifs
  · have hfits : (TimerCall.start t).Fits := trivial
    obtain ⟨y', hy', hstarted⟩ := hcleared.call hfits
    exact ⟨y', hy', _, hlt, hstarted⟩
  · exact ⟨_, rfl, _, hlt, hcleared⟩

/-- As many rounds are enough as alarms have to ring. -/
theorem Ringing.rtTimerCheck {I : TimerSystem σ → Prop} (hfunc : TimeoutsFit I timeoutFunc)
    (h : y.Ringing now k) (hI : I y) {fuel : ℕ} (hfuel : k < fuel) :
    ∃ y', rtTimerCheck timeoutFunc fuel y = some y' ∧ y'.timers.Fits := by
  induction fuel generalizing y k with
  | zero => exact absurd hfuel (Nat.not_lt_zero k)
  | succ fuel ih =>
    rw [Rtos.rtTimerCheck]
    split
    · exact ⟨y, rfl, h.fits⟩
    · next t rest hlist =>
      split_ifs with hdue
      · have hnext : y.timers.NextDue t := ⟨by rw [hlist, List.head?_cons], hdue⟩
        obtain ⟨m, hm, j, hj, hringing⟩ := h.runTimer hfunc hI hnext
        obtain ⟨y', hy', hfits⟩ := ih hringing (hfunc.keep y t m hI hnext hm) (by omega)
        exact ⟨y', by rw [hm, Option.bind_some, hy'], hfits⟩
      · exact ⟨y, rfl, h.fits⟩

/-- The measure of the loop is the number of timers that are due: each round lowers it. -/
theorem Sound.tick_returns {I : TimerSystem σ → Prop} (hfunc : TimeoutsFit I timeoutFunc)
    (h : y.Sound now false) (hfits : y.timers.Fits) (hI : I y.ticked) {rounds : ℕ}
    (hrounds : y.timers.timerList.length < rounds) :
    ∃ y', Rtos.rtTickIncrease timeoutFunc rounds y = some y' ∧ y'.timers.Fits := by
  obtain ⟨c, hhistory, hshows, hcalm⟩ := h
  have hlength : c.pending.length = y.timers.timerList.length := by
    obtain ⟨queue, hqueue, hlist⟩ := hshows.queue
    rw [hlist, List.length_map, hqueue.perm.length_eq]
  have hringing : y.ticked.Ringing now y.timers.timerList.length := by
    refine ⟨⟨_, run_concat hhistory (if_neg ?_), hshows.tick hcalm, rfl, ?_⟩, hfits⟩
    · rw [hcalm]
      exact Bool.false_ne_true
    · exact hlength ▸ List.countP_le_length
  obtain ⟨m, hm, hfits'⟩ := hringing.rtTimerCheck hfunc hI hrounds
  exact ⟨_, congrArg (Option.map _) hm, hfits'⟩

end TimerSystem

/-! ## A timer that does not wait -/

/-- No function makes calls about `t`. -/
def NoCallAbout {σ : Type} (t : TimerId)
    (timeoutFunc : TimerId → σ → Timers → Option (σ × List TimerCall)) : Prop :=
  ∀ u host s host' cs, timeoutFunc u host s = some (host', cs) → ∀ c ∈ cs, c.timer ≠ t

/-- The alarm of `t` has to ring now. -/
def TimerSystem.Due {σ : Type} (now : ℕ) (t : TimerId) (y : TimerSystem σ) : Prop :=
  ∃ c, run Alarms.step (Clock.start now) y.history = some c ∧ y.timers.Shows c ∧
    c.ringing = true ∧ ∃ d ≤ c.now, (t, d) ∈ c.pending

namespace TimerSystem

variable {σ : Type} {now : ℕ} {t : TimerId} {y y' : TimerSystem σ}

/-- A call about one timer changes no other. -/
theorem call_timer_of_ne {call : TimerCall} (ht : call.timer ≠ t) (h : y.call call = some y') :
    y'.timers.timer t = y.timers.timer t := by
  obtain ⟨s, hs, rfl⟩ := Option.map_eq_some_iff.mp h
  exact Timers.call_timer_of_ne ht hs

/-- A timer nobody makes a call about stays due. -/
theorem Due.call (h : y.Due now t) {call : TimerCall} (ht : call.timer ≠ t)
    (hcall : y.call call = some y') : y'.Due now t := by
  obtain ⟨c, hrun, hshows, hringing, d, hd, hmem⟩ := h
  obtain ⟨s, hs, rfl⟩ := Option.map_eq_some_iff.mp hcall
  obtain ⟨c', hevents, hshows', hringing'⟩ := hshows.call hs
  refine ⟨c', run_append_eq_some.mpr ⟨c, hrun, hevents⟩, hshows', hringing'.trans hringing, d, ?_⟩
  cases call with
  | start u =>
    obtain ⟨m, hm, hnil⟩ := run_cons_eq_some.mp hevents
    rw [← run_nil_eq_some.mp hnil, ← Option.some.inj hm]
    exact ⟨hd, List.mem_append_left _ (mem_others.mpr ⟨ht.symm, hmem⟩)⟩
  | stop u =>
    rw [TimerCall.events] at hevents
    split_ifs at hevents
    · obtain ⟨m, hm, hnil⟩ := run_cons_eq_some.mp hevents
      rw [← run_nil_eq_some.mp hnil, ← Option.some.inj hm]
      exact ⟨hd, mem_others.mpr ⟨ht.symm, hmem⟩⟩
    · rw [← run_nil_eq_some.mp hevents]
      exact ⟨hd, hmem⟩
  | setTime u tick | setOneshot u | setPeriodic u =>
    rw [← run_nil_eq_some.mp hevents]
    exact ⟨hd, hmem⟩

/-- And so over a list of calls. -/
theorem Due.calls (h : y.Due now t) {cs : List TimerCall} (hcs : ∀ c ∈ cs, c.timer ≠ t)
    (hcalls : y.calls cs = some y') : y'.Due now t :=
  run_rule (P := fun _ => Due now t) (fun _ _ _ _ h ht hcall => h.call ht hcall) h
    (each_of_forall (fun c hc _ => hcs c hc) y) hcalls

/-- Its fields stay as well. -/
theorem calls_timer_of_ne {cs : List TimerCall} (hcs : ∀ c ∈ cs, c.timer ≠ t)
    (hcalls : y.calls cs = some y') : y'.timers.timer t = y.timers.timer t :=
  run_rule (P := fun _ m => m.timers.timer t = y.timers.timer t)
    (fun _ _ _ _ h ht hcall => (call_timer_of_ne ht hcall).trans h) rfl
    (each_of_forall (fun c hc _ => hcs c hc) y) hcalls

variable {timeoutFunc : TimerId → σ → Timers → Option (σ × List TimerCall)}

/-- Clearing the flag of any timer leaves it due. -/
theorem Due.clear (h : y.Due now t) (u : TimerId) :
    Due now t ({ y with
      timers := y.timers.setTimer u fun timer => { timer with activated := false } } :
        TimerSystem σ) := by
  obtain ⟨c, hrun, hshows, halarms⟩ := h
  refine ⟨c, hrun, ?_, halarms⟩
  dsimp only
  exact hshows.setTimer u fun _ => rfl

/-- It stays due while another timer runs. -/
theorem Due.runTimer_of_ne (hcalls : NoCallAbout t timeoutFunc) (h : y.Due now t) {u : TimerId}
    (hu : u ≠ t) (hdue : y.timers.NextDue u)
    (hrun : runTimer timeoutFunc y u = some y') :
    y'.Due now t ∧ y'.timers.timer t = y.timers.timer t := by
  obtain ⟨c, hhistory, hshows, hringing, d, hd, hmem⟩ := h
  obtain ⟨host, cs, m, hfunc, hm, hend⟩ := runTimer_eq_some hrun
  have hcs := hcalls u y.host _ host cs hfunc
  have hring := hshows.ring hringing hdue
  have hremoved : Due now t (⟨host, rtTimerRemove y.timers u, y.history ++ [.ring u]⟩ :
      TimerSystem σ) :=
    ⟨_, run_concat hhistory hring, hshows.remove u, hringing, d, hd,
      mem_others.mpr ⟨hu.symm, hmem⟩⟩
  have hcleared := (hremoved.calls hcs hm).clear u
  have hcalled := calls_timer_of_ne hcs hm
  have htimer := (m.timers.setTimer_timer_of_ne hu.symm
    fun timer => { timer with activated := false }).trans hcalled
  have hstart : (TimerCall.start u).timer ≠ t := hu
  dsimp only at hend
  split_ifs at hend
  · exact ⟨hcleared.call hstart hend, (call_timer_of_ne hstart hend).trans htimer⟩
  · exact hend ▸ ⟨hcleared, htimer⟩

/-- What the timer does that `rt_timer_check` starts again for no ticks. -/
theorem Due.runTimer_self (hcalls : NoCallAbout t timeoutFunc) (h : y.Due now t)
    (ht : (y.timers.timer t).periodic ∧ (y.timers.timer t).activated)
    (hzero : (y.timers.timer t).initTick = 0) (hdue : y.timers.NextDue t)
    (hrun : runTimer timeoutFunc y t = some y') :
    y'.Due now t ∧ ((y'.timers.timer t).periodic ∧ (y'.timers.timer t).activated) ∧
      (y'.timers.timer t).initTick = 0 := by
  obtain ⟨c, hhistory, hshows, hringing, -⟩ := h
  obtain ⟨host, cs, m, hfunc, hm, hend⟩ := runTimer_eq_some hrun
  have hremoved := Sound.removed ⟨c, hhistory, hshows, hringing⟩ hdue host
  obtain ⟨c', hhistory', hshows', hringing'⟩ := hremoved.calls hm
  have htimer := calls_timer_of_ne (hcalls t y.host _ host cs hfunc) hm
  rw [rtTimerRemove_timer] at htimer
  dsimp only at hend
  rw [htimer, if_pos ht] at hend
  obtain ⟨s, hs, rfl⟩ := Option.map_eq_some_iff.mp hend
  have hcleared := hshows'.setTimer t (f := fun timer => { timer with activated := false })
    fun _ => rfl
  obtain ⟨c'', hevents, hshows'', hringing''⟩ := hcleared.call hs
  obtain ⟨-, -, hstarted, -⟩ := rtTimerStart_eq_some hs
  rw [Timers.setTimer_timer_self, htimer] at hstarted
  refine ⟨⟨c'', run_append_eq_some.mpr ⟨c', hhistory', hevents⟩, hshows'',
    hringing''.trans hringing', c'.now, ?_⟩, ?_, ?_⟩
  · obtain ⟨k, hk, hnil⟩ := run_cons_eq_some.mp hevents
    rw [← run_nil_eq_some.mp hnil, ← Option.some.inj hk, Timers.setTimer_timer_self, htimer, hzero]
    exact ⟨le_rfl, List.mem_append_right _ List.mem_cons_self⟩
  · rw [hstarted]
    exact ⟨ht.1, rfl⟩
  · rw [hstarted]
    exact hzero

/-- The loop goes on for ever. -/
theorem Due.rtTimerCheck (hcalls : NoCallAbout t timeoutFunc) (h : y.Due now t)
    (ht : (y.timers.timer t).periodic ∧ (y.timers.timer t).activated)
    (hzero : (y.timers.timer t).initTick = 0) (fuel : ℕ) :
    rtTimerCheck timeoutFunc fuel y = none := by
  induction fuel generalizing y with
  | zero => rfl
  | succ fuel ih =>
    obtain ⟨c, hrun, hshows, hringing, d, hd, hmem⟩ := h
    rw [Rtos.rtTimerCheck]
    split
    · next hlist =>
      obtain ⟨queue, hqueue, heq⟩ := hshows.queue
      rw [hlist] at heq
      rw [← hqueue.mem_iff, List.map_eq_nil_iff.mp heq.symm] at hmem
      exact absurd hmem List.not_mem_nil
    · next u rest hlist =>
      have hhead : y.timers.timerList.head? = some u := by rw [hlist, List.head?_cons]
      obtain ⟨e, hnext, he⟩ := hshows.head hhead
      have hdue := he.mpr (((next_eq_some hnext).1 (t, d) hmem).trans hd)
      have hdueT : y.Due now t := ⟨c, hrun, hshows, hringing, d, hd, hmem⟩
      rw [if_pos hdue, Option.bind_eq_none_iff]
      intro m hm
      by_cases hu : u = t
      · subst hu
        obtain ⟨hdue', ht', hzero'⟩ := hdueT.runTimer_self hcalls ht hzero ⟨hhead, hdue⟩ hm
        exact ih hdue' ht' hzero'
      · obtain ⟨hdue', htimer⟩ := hdueT.runTimer_of_ne hcalls hu ⟨hhead, hdue⟩ hm
        exact ih hdue' (htimer ▸ ht) (htimer ▸ hzero)

end TimerSystem

section Runs

variable {σ : Type} {timeoutFunc : TimerId → σ → Timers → Option (σ × List TimerCall)} {fuel : ℕ}
  {now : ℕ} {y y' : TimerSystem σ} {inputs : List (TimerInput σ)}

/-- An input sets no other times than such. -/
def TimerInput.Fits : TimerInput σ → Prop
  | .calls _ cs => ∀ c ∈ cs, c.Fits
  | .tick => True

/-- Calls with times that fit are accepted. -/
theorem fits_calls {cs : List TimerCall} (h : y.timers.Fits) (hcs : ∀ c ∈ cs, c.Fits) :
    ∃ y', y.calls cs = some y' ∧ y'.timers.Fits := by
  refine TimerSystem.calls_returns (P := fun m => m.timers.Fits) (fun m c hm hc => ?_) h hcs
  obtain ⟨s, hs, hfits⟩ := hm.call hc
  exact ⟨_, congrArg (Option.map _) hs, hfits⟩

/-- If the functions of the timers return. -/
theorem TimerSystem.Sound.step_returns
    (hfunc : TimeoutsFit (fun _ : TimerSystem σ => True) timeoutFunc) (h : y.Sound now false)
    (hfits : y.timers.Fits) {input : TimerInput σ} (hinput : input.Fits) :
    ∃ fuel y', timerStep timeoutFunc fuel y input = some y' ∧ y'.Sound now false ∧
      y'.timers.Fits := by
  cases input with
  | calls host cs =>
    obtain ⟨y', hy', hfits'⟩ := fits_calls (y := { y with host := host }) hfits hinput
    exact ⟨0, y', hy', TimerSystem.Sound.calls (y := { y with host := host }) h hy', hfits'⟩
  | tick =>
    obtain ⟨y', hy', hfits'⟩ := h.tick_returns hfunc hfits trivial (Nat.lt_succ_self _)
    exact ⟨_, y', hy', h.rtTickIncrease hy', hfits'⟩

/-- With enough rounds every run of such inputs goes through. -/
theorem TimerSystem.Sound.run_returns
    (hfunc : TimeoutsFit (fun _ : TimerSystem σ => True) timeoutFunc) (h : y.Sound now false)
    (hfits : y.timers.Fits) (hinputs : ∀ input ∈ inputs, input.Fits) :
    ∃ fuel y', timerRun timeoutFunc fuel y inputs = some y' ∧ y'.Sound now false ∧
      y'.timers.Fits := by
  induction inputs generalizing y with
  | nil => exact ⟨0, y, rfl, h, hfits⟩
  | cons input inputs ih =>
    obtain ⟨fuel, m, hm, hsound, hm'⟩ :=
      h.step_returns hfunc hfits (hinputs input List.mem_cons_self)
    obtain ⟨fuel', y', hy', hkept⟩ :=
      ih hsound hm' fun i hi => hinputs i (List.mem_cons_of_mem input hi)
    have hstep := timerStep_mono (le_max_left fuel fuel') hm
    have hrest := timerRun_mono (le_max_right fuel fuel') hy'
    exact ⟨max fuel fuel', y', run_cons_eq_some.mpr ⟨m, hstep, hrest⟩, hkept⟩

/-- If every timer waits for at least one tick, and no other times are set by anyone, no assertion fails
and every tick ends, after one round for each timer on the list at most. -/
theorem timerRun_tick_returns
    (hfunc : ∀ t host s, ∃ host' cs, timeoutFunc t host s = some (host', cs) ∧ ∀ c ∈ cs, c.Fits)
    (h : y.Initial now) (hfits : y.timers.Fits) (hinputs : ∀ input ∈ inputs, input.Fits) :
    ∃ fuel y', timerRun timeoutFunc fuel y inputs = some y' ∧
      ∀ rounds, y'.timers.timerList.length < rounds →
        ∃ y'', rtTickIncrease timeoutFunc rounds y' = some y'' := by
  have hreturns : TimeoutsFit (fun _ => True) timeoutFunc :=
    ⟨fun y t _ _ => hfunc t y.host _, fun _ _ _ _ _ _ => trivial⟩
  obtain ⟨fuel, y', hrun, hsound, hfits'⟩ := h.sound.run_returns hreturns hfits hinputs
  refine ⟨fuel, y', hrun, fun rounds hrounds => ?_⟩
  obtain ⟨y'', hy'', -⟩ := hsound.tick_returns hreturns hfits' trivial hrounds
  exact ⟨y'', hy''⟩

/-- A timer function that stops another timer, and a periodic timer set to one tick. -/
theorem timerRun_tick_returns_restart :
    ∃ fuel y, timerRun stopsTwo fuel timersAtTheEnd
      [.calls () [.start 1, .setTime 0 1, .start 0], .tick, .tick, .tick] = some y ∧
        ∀ rounds, y.timers.timerList.length < rounds →
          ∃ y', rtTickIncrease stopsTwo rounds y = some y' := by
  apply timerRun_tick_returns
  · intro t host s
    refine ⟨_, _, rfl, fun c hc => ?_⟩
    split_ifs at hc
    · rw [List.mem_singleton.mp hc]
      trivial
    · exact absurd hc List.not_mem_nil
  · exact timersAtTheEnd_initial
  · intro t
    by_cases ht : t = 0
    · subst ht
      exact ⟨by decide, by decide⟩
    · have htimer : (timersAtTheEnd.timers.timer t).initTick = 3 := if_neg ht
      rw [Timer.Fits, htimer]
      exact ⟨by decide, by decide⟩
  · simp [TimerInput.Fits, TimerCall.Fits, rtTickMax]

/-- A periodic timer that is to wait for no ticks keeps the tick from ending at which it runs out, if no
function stops it or sets its time. -/
theorem timerRun_tick_hangs {t : TimerId} (hcalls : NoCallAbout t timeoutFunc) (h : y.Initial now)
    (hrun : timerRun timeoutFunc fuel y inputs = some y') {n : ℕ} {since : List (Event TimerId)}
    (hset : SetSince y'.history t n since) (hn : n ≤ since.count .tick + 1)
    (ht : (y'.timers.timer t).periodic ∧ (y'.timers.timer t).activated)
    (hzero : (y'.timers.timer t).initTick = 0) (rounds : ℕ) :
    rtTickIncrease timeoutFunc rounds y' = none := by
  obtain ⟨c, hhistory, hshows, hcalm⟩ := timerRun_sound h hrun
  obtain ⟨d, hmem, hd⟩ := (kept_run hhistory).exists_mem hset
  have hdue : y'.ticked.Due now t := by
    refine ⟨_, run_concat hhistory (if_neg ?_), hshows.tick hcalm, rfl, d, ?_, hmem⟩
    · rw [hcalm]
      exact Bool.false_ne_true
    · dsimp only
      omega
  have hnone := hdue.rtTimerCheck hcalls ht hzero rounds
  exact congrArg (Option.map _) hnone

/-- A periodic timer set to no ticks while it runs. -/
theorem timerRun_tick_hangs_zero :
    ∃ y, timerRun stopsTwo 4 timersAtTheEnd [.calls () [.start 0, .setTime 0 0, .start 1], .tick] =
      some y ∧ ∀ rounds, rtTickIncrease stopsTwo rounds y = none := by
  have hcalls : NoCallAbout 0 stopsTwo := by
    intro u host s host' cs hfunc c hc
    obtain ⟨-, rfl⟩ := Prod.mk.inj (Option.some.inj hfunc)
    split_ifs at hc
    · rw [List.mem_singleton.mp hc]
      exact Nat.succ_ne_zero 1
    · exact absurd hc List.not_mem_nil
  obtain ⟨y, hy, hstate⟩ := Option.map_eq_some_iff.mp (by decide +kernel :
    (timerRun stopsTwo 4 timersAtTheEnd [.calls () [.start 0, .setTime 0 0, .start 1], .tick]).map
      (fun y => (y.history, y.timers.timer 0)) =
      some ([.set 0 2, .set 1 3, .tick, .quiet], ⟨0, 0, true, true⟩))
  obtain ⟨hhistory, htimer⟩ := Prod.mk.inj hstate
  have hset : SetSince y.history 0 2 [.set 1 3, .tick, .quiet] :=
    ⟨[], hhistory, by simp [Event.alarm]⟩
  exact ⟨y, hy, timerRun_tick_hangs hcalls timersAtTheEnd_initial hy hset (by decide)
    (by rw [htimer]; exact ⟨rfl, rfl⟩) (by rw [htimer])⟩

end Runs

end Stm32Board.Rtos
