import Stm32Board.Common.Linked
import Stm32Board.Common.Transition
import Mathlib.Data.List.Induction

/-!
# Alarm clocks

A clock whose time has no end, with alarms that are set to ring in a number of ticks. `step` allows what
is right: after a tick the alarms whose time has come ring, the earliest first and of those for one time
the one that was set first, before the clock may tick again. So an alarm rings after as many ticks as it
was set for (`rings_on_time`), and none is missed (`none_missed`).

A queue that is sorted by time, and stable, has the next alarm at its head (`Queue.next_eq`).
-/

namespace Stm32Board.Common.Alarms

open Transition (run run_append_eq_some run_rule each_true)

variable {α : Type*} [DecidableEq α]

inductive Event (α : Type*) where
  | tick
  | quiet
  | set (a : α) (ticks : ℕ)
  | cancel (a : α)
  | ring (a : α)
deriving DecidableEq, Repr

/-- The alarm that an event is about. -/
def Event.alarm : Event α → Option α
  | .tick | .quiet => none
  | .set a _ | .cancel a | .ring a => some a

/-- The alarm that an event rings. -/
def Event.rung : Event α → Option α
  | .ring a => some a
  | .tick | .quiet | .set _ _ | .cancel _ => none

/-- `pending` has the alarms that are set, with their times, in the order they were set in. -/
structure Clock (α : Type*) where
  now : ℕ
  ringing : Bool
  pending : List (α × ℕ)

/-- Nothing is set yet. -/
def Clock.start (now : ℕ) : Clock α := ⟨now, false, []⟩

def others (a : α) (pending : List (α × ℕ)) : List (α × ℕ) := pending.filter fun p => p.1 ≠ a

/-- The earliest alarm, and of several the one that was set first. -/
def next (pending : List (α × ℕ)) : Option (α × ℕ) :=
  pending.find? fun p => ∀ q ∈ pending, p.2 ≤ q.2

def step (c : Clock α) : Event α → Option (Clock α)
  | .tick => if c.ringing then none else some { c with now := c.now + 1, ringing := true }
  | .quiet =>
    if c.ringing ∧ ∀ p ∈ c.pending, c.now < p.2 then some { c with ringing := false } else none
  | .set a ticks => some { c with pending := others a c.pending ++ [(a, c.now + ticks)] }
  | .cancel a => some { c with pending := others a c.pending }
  | .ring a =>
    (next c.pending).bind fun p =>
      if c.ringing ∧ p.1 = a ∧ p.2 ≤ c.now then some { c with pending := others a c.pending }
      else none

/-! ## What an alarm was set for -/

/-- `a` was last set for `n` ticks, and has not rung and was not cancelled `since`. -/
def SetSince (events : List (Event α)) (a : α) (n : ℕ) (since : List (Event α)) : Prop :=
  ∃ before, events = before ++ .set a n :: since ∧ ∀ e ∈ since, e.alarm ≠ some a

omit [DecidableEq α] in
/-- Events about other alarms. -/
theorem SetSince.append {events since later : List (Event α)} {a : α} {n : ℕ}
    (h : SetSince events a n since) (hlater : ∀ e ∈ later, e.alarm ≠ some a) :
    SetSince (events ++ later) a n (since ++ later) := by
  obtain ⟨before, rfl, hnot⟩ := h
  refine ⟨before, by simp, fun e he => ?_⟩
  exact (List.mem_append.mp he).elim (hnot e) (hlater e)

omit [DecidableEq α] in
/-- Events before the alarm was set. -/
theorem SetSince.prepend {events since : List (Event α)} {a : α} {n : ℕ}
    (h : SetSince events a n since) (earlier : List (Event α)) :
    SetSince (earlier ++ events) a n since := by
  obtain ⟨before, rfl, hnot⟩ := h
  exact ⟨earlier ++ before, by rw [List.append_assoc], hnot⟩

omit [DecidableEq α] in
/-- An alarm is set now, or was set before and is not concerned. -/
theorem setSince_concat {events : List (Event α)} {e : Event α} {a : α} {n : ℕ}
    {since : List (Event α)} :
    SetSince (events ++ [e]) a n since ↔
      e = .set a n ∧ since = [] ∨
        e.alarm ≠ some a ∧ ∃ earlier, SetSince events a n earlier ∧ since = earlier ++ [e] := by
  constructor
  · rintro ⟨before, heq, hnot⟩
    rcases List.eq_nil_or_concat' since with rfl | ⟨earlier, e', rfl⟩
    · obtain ⟨-, he⟩ := List.append_inj' heq rfl
      exact .inl ⟨List.singleton_inj.mp he, rfl⟩
    · rw [← List.cons_append, ← List.append_assoc] at heq
      obtain ⟨hevents, he⟩ := List.append_inj' heq rfl
      obtain rfl := List.singleton_inj.mp he
      exact .inr ⟨hnot e (List.mem_append_right _ List.mem_cons_self), earlier,
        ⟨before, hevents, fun e' he' => hnot e' (List.mem_append_left _ he')⟩, rfl⟩
  · rintro (⟨rfl, rfl⟩ | ⟨he, earlier, ⟨before, rfl, hnot⟩, rfl⟩)
    · exact ⟨events, rfl, fun e he => absurd he List.not_mem_nil⟩
    · refine SetSince.append ⟨before, rfl, hnot⟩ fun e' he' => ?_
      rw [List.mem_singleton.mp he']
      exact he

section Concat

variable {events : List (Event α)} {e : Event α} {a : α} {n m : ℕ} {since since' : List (Event α)}

omit [DecidableEq α] in
/-- An event that is not about `a` changes nothing for it. -/
theorem setSince_concat_of_ne (he : e.alarm ≠ some a) :
    SetSince (events ++ [e]) a n since ↔
      ∃ earlier, SetSince events a n earlier ∧ since = earlier ++ [e] := by
  rw [setSince_concat, and_iff_right he]
  refine or_iff_right fun h => he ?_
  rw [h.1]
  rfl

omit [DecidableEq α] in
/-- There is one last time an alarm was set. -/
theorem setSince_unique (h : SetSince events a n since) (h' : SetSince events a m since') :
    n = m ∧ since = since' := by
  induction events using List.reverseRecOn generalizing since since' with
  | nil =>
    obtain ⟨before, heq, -⟩ := h
    simp at heq
  | append_singleton events e ih =>
    rcases setSince_concat.mp h with ⟨he, rfl⟩ | ⟨he, earlier, hset, rfl⟩ <;>
      rcases setSince_concat.mp h' with ⟨he', rfl⟩ | ⟨he', earlier', hset', rfl⟩
    · exact ⟨(Event.set.inj (he ▸ he')).2, rfl⟩
    · exact absurd (by rw [he]; rfl) he'
    · exact absurd (by rw [he']; rfl) he
    · obtain ⟨rfl, rfl⟩ := ih hset hset'
      exact ⟨rfl, rfl⟩

end Concat

/-- What a clock that was started at `now` keeps, with the events so far. -/
structure Kept (now : ℕ) (events : List (Event α)) (c : Clock α) : Prop where
  now_eq : c.now = now + events.count .tick
  pending : ∀ a d, (a, d) ∈ c.pending ↔
    ∃ n since, SetSince events a n since ∧ d + since.count .tick = c.now + n
  calm : c.ringing = false → ∀ a n since, SetSince events a n since →
    since.count .tick < n ∨ n = 0 ∧ since.count .tick = 0
  inTime : ∀ a n since, SetSince events a n since →
    since.count .tick ≤ n ∨ n = 0 ∧ since.count .tick = 1
  order : c.pending.Pairwise fun p q => ∀ n m sinceP sinceQ,
    SetSince events p.1 n sinceP → SetSince events q.1 m sinceQ → sinceQ.length < sinceP.length

theorem mem_others {a b : α} {d : ℕ} {pending : List (α × ℕ)} :
    (b, d) ∈ others a pending ↔ b ≠ a ∧ (b, d) ∈ pending := by
  rw [others, List.mem_filter, decide_eq_true_eq, and_comm]

/-- Nothing is set at the start. -/
theorem kept_start (now : ℕ) : Kept now [] (Clock.start now : Clock α) := by
  have hnone : ∀ a n since, ¬SetSince ([] : List (Event α)) a n since := by
    rintro a n since ⟨before, heq, -⟩
    simp at heq
  refine ⟨rfl, fun a d => ?_, fun _ a n since h => absurd h (hnone a n since),
    fun a n since h => absurd h (hnone a n since), List.Pairwise.nil⟩
  exact iff_of_false List.not_mem_nil fun ⟨n, since, h, _⟩ => hnone a n since h

section Step

variable {now : ℕ} {events : List (Event α)} {c c' : Clock α}

/-- The alarms are kept in order while events go on that set none of them. -/
theorem Kept.order_concat (h : Kept now events c) {e : Event α} {pending : List (α × ℕ)}
    (hsub : pending.Sublist c.pending) (hnot : ∀ p ∈ pending, e.alarm ≠ some p.1) :
    pending.Pairwise fun p q => ∀ n m sinceP sinceQ, SetSince (events ++ [e]) p.1 n sinceP →
      SetSince (events ++ [e]) q.1 m sinceQ → sinceQ.length < sinceP.length := by
  refine (h.order.sublist hsub).imp_of_mem fun {p q} hp hq hpq n m sinceP sinceQ hsetP hsetQ => ?_
  obtain ⟨earlierP, hearlierP, rfl⟩ := (setSince_concat_of_ne (hnot p hp)).mp hsetP
  obtain ⟨earlierQ, hearlierQ, rfl⟩ := (setSince_concat_of_ne (hnot q hq)).mp hsetQ
  rw [List.length_append, List.length_append]
  exact Nat.add_lt_add_right (hpq n m earlierP earlierQ hearlierP hearlierQ) 1

/-- An event that sets no alarm ends the one that it is about. -/
theorem Kept.concat (h : Kept now events c) {e : Event α} (hset : ∀ a n, e ≠ .set a n)
    (hnow : c'.now = c.now + [e].count .tick)
    (hpending : c'.pending = c.pending.filter fun p => e.alarm ≠ some p.1)
    (hcalm : c'.ringing = false → ∀ a n since, SetSince events a n since → e.alarm ≠ some a →
      (since ++ [e]).count .tick < n ∨ n = 0 ∧ (since ++ [e]).count .tick = 0)
    (hinTime : ∀ a n since, SetSince events a n since → e.alarm ≠ some a →
      (since ++ [e]).count .tick ≤ n ∨ n = 0 ∧ (since ++ [e]).count .tick = 1) :
    Kept now (events ++ [e]) c' := by
  have hiff : ∀ a n since, SetSince (events ++ [e]) a n since ↔
      e.alarm ≠ some a ∧ ∃ earlier, SetSince events a n earlier ∧ since = earlier ++ [e] :=
    fun a n since => setSince_concat.trans (or_iff_right fun h => hset a n h.1)
  refine ⟨?_, fun a d => ?_, fun hringing a n since hsince => ?_, fun a n since hsince => ?_, ?_⟩
  · rw [hnow, h.now_eq, List.count_append, Nat.add_assoc]
  · rw [hpending, List.mem_filter, decide_eq_true_eq, h.pending, hnow]
    constructor
    · rintro ⟨⟨n, earlier, hearlier, hd⟩, ha⟩
      refine ⟨n, _, (hiff a n _).mpr ⟨ha, earlier, hearlier, rfl⟩, ?_⟩
      rw [List.count_append]
      omega
    · rintro ⟨n, since, hsince, hd⟩
      obtain ⟨ha, earlier, hearlier, rfl⟩ := (hiff a n since).mp hsince
      rw [List.count_append] at hd
      exact ⟨⟨n, earlier, hearlier, by omega⟩, ha⟩
  · obtain ⟨ha, earlier, hearlier, rfl⟩ := (hiff a n since).mp hsince
    exact hcalm hringing a n earlier hearlier ha
  · obtain ⟨ha, earlier, hearlier, rfl⟩ := (hiff a n since).mp hsince
    exact hinTime a n earlier hearlier ha
  · rw [hpending]
    refine h.order_concat List.filter_sublist fun p hp => ?_
    exact of_decide_eq_true (List.mem_filter.mp hp).2

omit [DecidableEq α] in
/-- Only ticks count as ticks. -/
theorem count_tick_concat {e : Event α} (he : e ≠ .tick) (events : List (Event α))
    [DecidableEq (Event α)] : (events ++ [e]).count .tick = events.count .tick := by
  rw [List.count_append, List.count_singleton, if_neg (by simpa using he), Nat.add_zero]

/-- An event that only ends an alarm. -/
theorem Kept.without (h : Kept now events c) {e : Event α} {a : α} (he : e.alarm = some a)
    (hset : ∀ b n, e ≠ .set b n) :
    Kept now (events ++ [e]) { c with pending := others a c.pending } := by
  have htick : e ≠ .tick := fun heq => by rw [heq] at he; cases he
  refine h.concat hset ?_ ?_ (fun hringing b n since hsince _ => ?_) fun b n since hsince _ => ?_
  · rw [← List.nil_append [e], count_tick_concat htick]
    rfl
  · refine List.filter_congr fun p _ => decide_eq_decide.mpr ?_
    rw [he, ne_eq, ne_eq, Option.some_inj, eq_comm]
  · rw [count_tick_concat htick]
    exact h.calm hringing b n since hsince
  · rw [count_tick_concat htick]
    exact h.inTime b n since hsince

/-- An alarm is set, whether it was set before or not. -/
theorem Kept.set (h : Kept now events c) (a : α) (n : ℕ) :
    Kept now (events ++ [.set a n])
      { c with pending := others a c.pending ++ [(a, c.now + n)] } := by
  have hcount := count_tick_concat (e := Event.set a n) (by simp)
  have hiff : ∀ b m since, SetSince (events ++ [.set a n]) b m since ↔ b = a ∧ m = n ∧ since = [] ∨
      b ≠ a ∧ ∃ earlier, SetSince events b m earlier ∧ since = earlier ++ [.set a n] := by
    intro b m since
    rw [setSince_concat, Event.set.injEq, Event.alarm, ne_eq, Option.some_inj, and_assoc,
      eq_comm (a := a), eq_comm (a := n)]
  -- time, pending alarms, calm, in time, order
  refine ⟨?_, fun b d => ?_, fun hringing b m since hsince => ?_, fun b m since hsince => ?_, ?_⟩
  · rw [hcount]
    exact h.now_eq
  · rw [List.mem_append, mem_others, List.mem_singleton, Prod.mk.injEq, h.pending]
    constructor
    · rintro (⟨hb, m, earlier, hearlier, hd⟩ | ⟨rfl, rfl⟩)
      · refine ⟨m, _, (hiff b m _).mpr (.inr ⟨hb, earlier, hearlier, rfl⟩), ?_⟩
        rw [hcount]
        exact hd
      · exact ⟨n, [], (hiff b n []).mpr (.inl ⟨rfl, rfl, rfl⟩), rfl⟩
    · rintro ⟨m, since, hsince, hd⟩
      rcases (hiff b m since).mp hsince with ⟨rfl, rfl, rfl⟩ | ⟨hb, earlier, hearlier, rfl⟩
      · exact .inr ⟨rfl, hd⟩
      · rw [hcount] at hd
        exact .inl ⟨hb, m, earlier, hearlier, hd⟩
  · rcases (hiff b m since).mp hsince with ⟨rfl, rfl, rfl⟩ | ⟨hb, earlier, hearlier, rfl⟩
    · rw [List.count_nil]
      omega
    · rw [hcount]
      exact h.calm hringing b m earlier hearlier
  · rcases (hiff b m since).mp hsince with ⟨rfl, rfl, rfl⟩ | ⟨hb, earlier, hearlier, rfl⟩
    · rw [List.count_nil]
      omega
    · rw [hcount]
      exact h.inTime b m earlier hearlier
  · refine List.pairwise_append.mpr ⟨?_, List.pairwise_singleton _ _, fun p hp q hq => ?_⟩
    · refine h.order_concat List.filter_sublist fun p hp heq => ?_
      exact (mem_others.mp hp).1 (Option.some.inj heq).symm
    · obtain rfl := List.mem_singleton.mp hq
      intro k m sinceP sinceQ hsetP hsetQ
      rcases (hiff _ _ _).mp hsetP with ⟨hp', -⟩ | ⟨-, earlier, -, rfl⟩
      · exact absurd hp' (mem_others.mp hp).1
      · rcases (hiff _ _ _).mp hsetQ with ⟨-, -, rfl⟩ | ⟨hne, -⟩
        · simp
        · exact absurd rfl hne

/-- A tick brings every alarm one tick closer. -/
theorem Kept.tick (h : Kept now events c) (hcalm : c.ringing = false) :
    Kept now (events ++ [.tick]) { c with now := c.now + 1, ringing := true } := by
  refine h.concat (fun _ _ => by simp) rfl ?_ (fun hringing => absurd hringing (by simp))
    fun a n since hsince _ => ?_
  · exact (List.filter_eq_self.mpr fun p _ => decide_eq_true (by simp [Event.alarm])).symm
  · have htime := h.calm hcalm a n since hsince
    rw [List.count_append, List.count_singleton_self]
    omega

/-- The time of an alarm that is set. -/
theorem Kept.exists_mem (h : Kept now events c) {a : α} {n : ℕ} {since : List (Event α)}
    (hsince : SetSince events a n since) :
    ∃ d, (a, d) ∈ c.pending ∧ d + since.count .tick = c.now + n := by
  have hle : since.count .tick ≤ events.count .tick := by
    obtain ⟨before, rfl, -⟩ := hsince
    rw [List.count_append, List.count_cons]
    omega
  have hnow := h.now_eq
  refine ⟨c.now + n - since.count .tick, (h.pending a _).mpr ⟨n, since, hsince, ?_⟩, ?_⟩ <;> omega

/-- What has to wait until later was set less than its ticks ago. -/
theorem Kept.lt_of_later (h : Kept now events c) (hlater : ∀ p ∈ c.pending, c.now < p.2) {a : α}
    {n : ℕ} {since : List (Event α)} (hsince : SetSince events a n since) :
    since.count .tick < n := by
  obtain ⟨d, hmem, hd⟩ := h.exists_mem hsince
  have hlt := hlater _ hmem
  dsimp only at hlt
  omega

/-- The clock is quiet when no alarm is left that is due. -/
theorem Kept.quiet (h : Kept now events c) (hlater : ∀ p ∈ c.pending, c.now < p.2) :
    Kept now (events ++ [.quiet]) { c with ringing := false } := by
  have hcount := count_tick_concat (e := (.quiet : Event α)) (by simp)
  refine h.concat (fun _ _ => by simp) rfl ?_ (fun _ a n since hsince _ => ?_)
    fun a n since hsince _ => ?_
  · exact (List.filter_eq_self.mpr fun p _ => decide_eq_true (by simp [Event.alarm])).symm
  · rw [hcount]
    exact .inl (h.lt_of_later hlater hsince)
  · rw [hcount]
    exact h.inTime a n since hsince

/-- What rings is the next alarm, and it is due. -/
theorem step_ring_eq_some {a : α} :
    step c (.ring a) = some c' ↔ c.ringing ∧ (∃ d ≤ c.now, next c.pending = some (a, d)) ∧
      c' = { c with pending := others a c.pending } := by
  rw [step, Option.bind_eq_some_iff]
  constructor
  · rintro ⟨⟨b, d⟩, hnext, h⟩
    split_ifs at h with hring
    · obtain ⟨hringing, rfl, hd⟩ := hring
      exact ⟨hringing, ⟨d, hd, hnext⟩, (Option.some.inj h).symm⟩
  · rintro ⟨hringing, ⟨d, hd, hnext⟩, rfl⟩
    exact ⟨(a, d), hnext, if_pos ⟨hringing, rfl, hd⟩⟩

/-- Every step keeps the alarms where the history puts them. -/
theorem Kept.step (h : Kept now events c) {e : Event α} (hstep : step c e = some c') :
    Kept now (events ++ [e]) c' := by
  cases e with
  | tick =>
    rw [Alarms.step] at hstep
    split_ifs at hstep with hringing
    rw [← Option.some.inj hstep]
    exact h.tick (Bool.not_eq_true _ ▸ hringing)
  | quiet =>
    rw [Alarms.step] at hstep
    split_ifs at hstep with hquiet
    rw [← Option.some.inj hstep]
    exact h.quiet hquiet.2
  | set a n =>
    rw [← Option.some.inj hstep]
    exact h.set a n
  | cancel a =>
    rw [← Option.some.inj hstep]
    exact h.without rfl fun _ _ => by simp
  | ring a =>
    obtain ⟨-, -, rfl⟩ := step_ring_eq_some.mp hstep
    exact h.without rfl fun _ _ => by simp

/-- Whatever happens. -/
theorem kept_run (hrun : run Alarms.step (Clock.start now) events = some c) : Kept now events c :=
  run_rule (fun _ _ _ _ h _ => h.step) (kept_start now) (each_true _ events) hrun

end Step

/-! ## What a run of the clock says -/

omit [DecidableEq α] in
/-- The next alarm is the first one of the earliest. -/
theorem next_eq_some {pending : List (α × ℕ)} {p : α × ℕ} (h : next pending = some p) :
    (∀ q ∈ pending, p.2 ≤ q.2) ∧
      ∃ sooner later, pending = sooner ++ p :: later ∧ ∀ q ∈ sooner, p.2 < q.2 := by
  obtain ⟨hmin, sooner, later, heq, hsooner⟩ := List.find?_eq_some_iff_append.mp h
  have hmin := of_decide_eq_true hmin
  refine ⟨hmin, sooner, later, heq, fun q hq => lt_of_not_ge fun hle => ?_⟩
  have hnot : ¬∀ r ∈ pending, q.2 ≤ r.2 := by simpa using hsooner q hq
  exact hnot fun r hr => hle.trans (hmin r hr)

section Runs

variable {now : ℕ} {before after : List (Event α)} {c : Clock α} {a : α}

/-- The clock when an alarm is about to ring. -/
theorem kept_ring (hrun : run step (Clock.start now) (before ++ .ring a :: after) = some c) :
    ∃ m : Clock α, Kept now before m ∧ ∃ d ≤ m.now, next m.pending = some (a, d) := by
  obtain ⟨m, hbefore, hafter⟩ := Transition.run_append_eq_some.mp hrun
  obtain ⟨m', hring, -⟩ := Transition.run_cons_eq_some.mp hafter
  exact ⟨m, kept_run hbefore, (step_ring_eq_some.mp hring).2.1⟩

/-- An alarm rings after as many ticks as it was set for, not earlier and not later; one that was set for
no ticks may have to wait for the next one. -/
theorem rings_on_time (hrun : run step (Clock.start now) (before ++ .ring a :: after) = some c) :
    ∃ n since, SetSince before a n since ∧
      (since.count .tick = n ∨ n = 0 ∧ since.count .tick = 1) := by
  obtain ⟨m, hkept, d, hd, hnext⟩ := kept_ring hrun
  obtain ⟨-, sooner, later, heq, -⟩ := next_eq_some hnext
  have hmem : (a, d) ∈ m.pending := heq ▸ List.mem_append_right _ List.mem_cons_self
  obtain ⟨n, since, hsince, htime⟩ := (hkept.pending a d).mp hmem
  have hinTime := hkept.inTime a n since hsince
  exact ⟨n, since, hsince, by omega⟩

/-- When the clock is quiet again, every alarm that has not rung has to wait for more ticks. -/
theorem none_missed (hrun : run step (Clock.start now) (before ++ .quiet :: after) = some c) {n : ℕ}
    {since : List (Event α)} (hsince : SetSince before a n since) : since.count .tick < n := by
  obtain ⟨m, hbefore, hafter⟩ := Transition.run_append_eq_some.mp hrun
  obtain ⟨m', hquiet, -⟩ := Transition.run_cons_eq_some.mp hafter
  rw [step] at hquiet
  split_ifs at hquiet with hlater
  exact (kept_run hbefore).lt_of_later hlater.2 hsince

/-- What rings is due before any other alarm, or at the same time and was set before it. -/
theorem rings_first (hrun : run step (Clock.start now) (before ++ .ring a :: after) = some c) {b : α}
    (hb : b ≠ a) {n m : ℕ} {since since' : List (Event α)} (hsince : SetSince before a n since)
    (hsince' : SetSince before b m since') :
    n + since'.count .tick < m + since.count .tick ∨
      n + since'.count .tick = m + since.count .tick ∧ since'.length < since.length := by
  obtain ⟨k, hkept, d, hd, hnext⟩ := kept_ring hrun
  obtain ⟨hmin, sooner, later, heq, hsooner⟩ := next_eq_some hnext
  have hmem : (a, d) ∈ k.pending := heq ▸ List.mem_append_right _ List.mem_cons_self
  obtain ⟨n', since₁, hsince₁, htime⟩ := (hkept.pending a d).mp hmem
  obtain ⟨rfl, rfl⟩ := setSince_unique hsince hsince₁
  obtain ⟨d', hmem', htime'⟩ := hkept.exists_mem hsince'
  have hmin' := hmin _ hmem'
  dsimp only at hmin'
  rcases Nat.lt_or_ge (n + since'.count .tick) (m + since.count .tick) with hlt | hge
  · exact .inl hlt
  · refine .inr ⟨by omega, ?_⟩
    have horder := hkept.order
    rw [heq] at hmem' horder
    rcases List.mem_append.mp hmem' with hs | hs
    · have hlt := hsooner _ hs
      dsimp only at hlt
      omega
    · rcases List.mem_cons.mp hs with hs | hs
      · exact absurd (congrArg Prod.fst hs) hb
      · have hpairs := (List.pairwise_append.mp horder).2.1
        exact (List.pairwise_cons.mp hpairs).1 _ hs n m since since' hsince hsince'

/-- What is asked of alarms: they ring after as many ticks as they were set for, or at the next tick if
that is none; after a tick all ring whose time has come; the earliest ring first, and of those for one
time the one that was set first. -/
structure OnTime (events : List (Event α)) : Prop where
  rings : ∀ before after a, events = before ++ .ring a :: after → ∃ n since,
    SetSince before a n since ∧ (since.count .tick = n ∨ n = 0 ∧ since.count .tick = 1)
  noneMissed : ∀ before after, events = before ++ .quiet :: after → ∀ a n since,
    SetSince before a n since → since.count .tick < n
  first : ∀ before after a, events = before ++ .ring a :: after → ∀ n since, SetSince before a n since →
    ∀ b m since', b ≠ a → SetSince before b m since' →
      n + since'.count .tick < m + since.count .tick ∨
        n + since'.count .tick = m + since.count .tick ∧ since'.length < since.length

/-- In the history of a run every alarm rings on time. -/
theorem onTime_run {events : List (Event α)} (hrun : run step (Clock.start now) events = some c) :
    OnTime events where
  rings := by
    rintro before after a rfl
    exact rings_on_time hrun
  noneMissed := by
    rintro before after rfl a n since hsince
    exact none_missed hrun hsince
  first := by
    rintro before after a rfl n since hsince b m since' hb hsince'
    exact rings_first hrun hb hsince hsince'

end Runs

/-! ## When the clock is quiet again -/

/-- How many alarms have to ring before the clock is quiet. -/
def Clock.due (c : Clock α) : ℕ := c.pending.countP fun p => p.2 ≤ c.now

section Due

variable {c c' : Clock α} {a : α}

/-- Taking an alarm away makes no more of them due. -/
theorem due_others_le (c : Clock α) (a : α) :
    Clock.due { c with pending := others a c.pending } ≤ c.due :=
  List.filter_sublist.countP_le

/-- Whatever is set for later does not have to ring now. -/
theorem due_set_le {n : ℕ} (h : step c (.set a n) = some c') (hn : n ≠ 0) : c'.due ≤ c.due := by
  rw [← Option.some.inj h]
  refine le_trans (le_of_eq ?_) (due_others_le c a)
  rw [Clock.due, List.countP_append, List.countP_singleton, if_neg (by simp; omega)]
  rfl

/-- One less. -/
theorem due_ring_lt (h : step c (.ring a) = some c') : c'.due < c.due := by
  obtain ⟨-, ⟨d, hd, hnext⟩, rfl⟩ := step_ring_eq_some.mp h
  obtain ⟨-, sooner, later, heq, -⟩ := next_eq_some hnext
  have hmem : (a, d) ∈ c.pending := heq ▸ List.mem_append_right _ List.mem_cons_self
  rw [Clock.due, Clock.due, List.countP_eq_length_filter, List.countP_eq_length_filter, others,
    List.filter_comm, List.length_filter_lt_length_iff_exists]
  exact ⟨(a, d), List.mem_filter.mpr ⟨hmem, decide_eq_true hd⟩, by simp⟩

end Due

/-! ## Queues -/

/-- What is pending, sorted by time, those for one time in the order they were set in. -/
structure Queue (pending queue : List (α × ℕ)) : Prop where
  sorted : queue.Pairwise fun p q => p.2 ≤ q.2
  stable : ∀ d, (queue.filter fun p => p.2 = d) = pending.filter fun p => p.2 = d

namespace Queue

variable {pending queue : List (α × ℕ)}

omit [DecidableEq α] in
/-- A queue holds the alarms that are pending. -/
theorem mem_iff (h : Queue pending queue) {p : α × ℕ} : p ∈ queue ↔ p ∈ pending := by
  have hmem : ∀ l : List (α × ℕ), p ∈ l ↔ p ∈ l.filter fun q => q.2 = p.2 := by
    intro l
    rw [List.mem_filter, decide_eq_true_eq, and_iff_left rfl]
  rw [hmem queue, hmem pending, h.stable]

theorem perm (h : Queue pending queue) : queue.Perm pending := by
  refine List.perm_iff_count.mpr fun p => ?_
  have hcount : ∀ l : List (α × ℕ), (l.filter fun q => q.2 = p.2).count p = l.count p :=
    fun l => List.count_filter (decide_eq_true rfl)
  rw [← hcount queue, h.stable, hcount]

/-- And so it does without one of them. -/
theorem others (h : Queue pending queue) (a : α) :
    Queue (others a pending) (Alarms.others a queue) where
  sorted := h.sorted.filter _
  stable d := by
    rw [Alarms.others, Alarms.others, List.filter_comm, h.stable, List.filter_comm]

omit [DecidableEq α] in
/-- Those that come later than an alarm that is set last come behind it. -/
theorem insert (h : Queue pending queue) (p : α × ℕ) :
    Queue (pending ++ [p]) (queue.orderedInsert (fun p q => p.2 < q.2) p) where
  sorted := by
    apply pairwise_orderedInsert
    · exact fun _ _ => le_of_lt
    · exact fun _ _ => le_of_not_gt
    · exact fun _ _ _ => le_trans
    · exact h.sorted
  stable d := by
    rw [List.filter_append, ← h.stable]
    have hsorted := h.sorted
    clear h
    induction queue with
    | nil => rfl
    | cons q queue ih =>
      obtain ⟨hq, hqueue⟩ := List.pairwise_cons.mp hsorted
      rw [List.orderedInsert_cons]
      split_ifs with hlt
      · by_cases hd : p.2 = d
        · have hnil : ((q :: queue).filter fun r => r.2 = d) = [] := by
            refine List.filter_eq_nil_iff.mpr fun r hr => ?_
            rw [decide_eq_true_eq]
            rcases List.mem_cons.mp hr with rfl | hr
            · omega
            · have hle := hq r hr
              omega
          rw [← List.singleton_append, List.filter_append, hnil, List.append_nil, List.nil_append]
        · have hp : ([p].filter fun r => r.2 = d) = [] := by simp [hd]
          rw [← List.singleton_append, List.filter_append, hp, List.append_nil, List.nil_append]
      · rw [List.filter_cons, List.filter_cons, ih hqueue]
        split_ifs <;> rfl

omit [DecidableEq α] in
/-- The next alarm is at the head. -/
theorem next_eq {p : α × ℕ} {rest : List (α × ℕ)} (h : Queue pending (p :: rest)) :
    next pending = some p := by
  have hmem := h.mem_iff.mp List.mem_cons_self
  have hle : ∀ q ∈ pending, p.2 ≤ q.2 := fun q hq =>
    (List.mem_cons.mp (h.mem_iff.mpr hq)).elim (fun heq => heq ▸ le_rfl)
      ((List.pairwise_cons.mp h.sorted).1 q)
  have hearliest : ∀ q ∈ pending, decide (∀ r ∈ pending, q.2 ≤ r.2) = decide (q.2 = p.2) :=
    fun q hq => decide_eq_decide.mpr
      ⟨fun hmin => le_antisymm (hmin p hmem) (hle q hq), fun heq r hr => heq ▸ hle r hr⟩
  rw [next, ← List.head?_filter, List.filter_congr hearliest, ← h.stable, List.filter_cons,
    if_pos (decide_eq_true rfl)]
  rfl

end Queue

/-! ## Times that wrap around -/

/-- Which of two times comes first, by the difference of counters of 32 bits. -/
theorem sub_ofNat_lt_iff {a b : ℕ} (ha : a < b + 2147483647) (hb : b ≤ a + 2147483649) :
    UInt32.ofNat a - UInt32.ofNat b < 2147483647 ↔ b ≤ a := by
  have hhalf : (2147483647 : UInt32).toNat = 2147483647 := rfl
  rw [UInt32.lt_iff_toNat_lt, UInt32.toNat_sub, UInt32.toNat_ofNat', UInt32.toNat_ofNat', hhalf]
  omega

/-- Two numbers closer than the range of the ticks are equal when their ticks are. -/
theorem sub_ofNat_eq_zero_iff {a b : ℕ} (ha : a < b + 4294967296) (hb : b < a + 4294967296) :
    UInt32.ofNat a - UInt32.ofNat b = 0 ↔ b = a := by
  rw [← UInt32.toNat_inj, UInt32.toNat_sub, UInt32.toNat_ofNat', UInt32.toNat_ofNat',
    UInt32.toNat_zero]
  omega

/-- Adding ticks is adding numbers. -/
theorem ofNat_add_toNat (a : ℕ) (n : UInt32) :
    UInt32.ofNat a + n = UInt32.ofNat (a + n.toNat) := by
  rw [UInt32.ofNat_add, UInt32.ofNat_toNat]

end Stm32Board.Common.Alarms
