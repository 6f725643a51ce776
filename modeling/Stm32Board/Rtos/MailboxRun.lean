import Stm32Board.Common.Transition
import Stm32Board.Common.Wakeup
import Stm32Board.Rtos.Mailbox

/-!
# Runs of a mailbox

No message is lost, doubled or overtaken (`mbRun_fifo`), and no wakeup is lost (`mbRun_wakeups`), although
whoever is woken has to look again.
-/

namespace Stm32Board.Rtos

open Common
open Common.Transition (run_invariant)
open At (rtEok rtEtimeout)

section Model

variable {α : Type}

/-! ## Who waits -/

/-- What there is for the receivers, or for the senders. -/
def Mailbox.room (mb : Mailbox α) : Bool → ℕ
  | false => mb.entry
  | true => mb.size - mb.entry

namespace MbSystem

/-- The thread was woken in a call, and has not looked again yet. -/
structure Woken (y : MbSystem α) (b : Bool) (t : ThreadId) : Prop where
  awake : y.suspended t = false
  error : y.error t = rtEok
  calling : ∃ c, y.calling t = some c ∧ c.isSend = b

/-- Suspended threads are in the queues that their calls say. -/
structure Queued (y : MbSystem α) : Prop where
  mem_iff : ∀ b t, t ∈ y.mb.queue b ↔ y.suspended t ∧ ∃ c, y.calling t = some c ∧ c.isSend = b
  error : ∀ t, y.suspended t → y.error t = rtEok
  nodup : ∀ b, (y.mb.queue b).Nodup

def WakeupsOk (y : MbSystem α) : Prop := ∀ b, Covered (y.mb.queue b) (y.mb.room b) (y.Woken b)

end MbSystem

section Queues

@[simp] theorem Mailbox.setQueue_self (mb : Mailbox α) (threads : List ThreadId) (b : Bool) :
    (mb.setQueue threads b).queue b = threads := by
  cases b <;> rfl

/-- The queue of the other side stays. -/
theorem Mailbox.setQueue_of_ne (mb : Mailbox α) (threads : List ThreadId) {b b' : Bool} (h : b' ≠ b) :
    (mb.setQueue threads b).queue b' = mb.queue b' := by
  cases b <;> cases b' <;> first | rfl | exact absurd rfl h

/-- The queues take no room in the ring. -/
@[simp] theorem Mailbox.setQueue_room (mb : Mailbox α) (threads : List ThreadId) (b b' : Bool) :
    (mb.setQueue threads b).room b' = mb.room b' := by
  cases b <;> cases b' <;> rfl

variable {y y' : MbSystem α} {t : ThreadId} {b : Bool} {c : MbCall α}

/-- Nobody waits, nobody is woken. -/
theorem MbSystem.resumeFirst_nil (h : y.mb.queue b = []) : y.resumeFirst b = y := by
  unfold resumeFirst
  rw [h]

/-- The first in the queue is woken. -/
theorem MbSystem.resumeFirst_cons {threads : List ThreadId} (h : y.mb.queue b = t :: threads) :
    y.resumeFirst b =
      { y with
        mb := y.mb.setQueue threads b
        suspended := Function.update y.suspended t false } := by
  unfold resumeFirst
  rw [h]

namespace MbSystem.Queued

/-- Another state that has the same threads in its queues, but for `t`, which is awake. -/
theorem congr (h : y.Queued) (hawake : y.suspended t = false)
    (hqueue : ∀ b, y'.mb.queue b = y.mb.queue b) (hsuspended : y'.suspended = y.suspended)
    (hcalling : ∀ u, u ≠ t → y'.calling u = y.calling u)
    (herror : ∀ u, u ≠ t → y'.error u = y.error u) : y'.Queued := by
  have hne : ∀ u, y.suspended u → u ≠ t := by
    rintro u hsus rfl
    exact Bool.false_ne_true (hawake.symm.trans hsus)
  refine ⟨fun b u => ?_, fun u hsus => ?_, fun b => ?_⟩
  · rw [hqueue, hsuspended, h.mem_iff]
    exact and_congr_right fun hsus => by rw [hcalling u (hne u hsus)]
  · rw [hsuspended] at hsus
    rw [herror u (hne u hsus)]
    exact h.error u hsus
  · rw [hqueue]
    exact h.nodup b

/-- Who is suspended joins the queue of his side. -/
theorem suspend (h : y.Queued) (hawake : y.suspended t = false) (hb : c.isSend = b) :
    (y.suspend b t c).Queued := by
  have hperm := insertWaiting_perm y.currentPriority y.mb.flag t (y.mb.queue b)
  have hoff : ∀ b, t ∉ y.mb.queue b := fun b hmem =>
    Bool.false_ne_true (hawake.symm.trans ((h.mem_iff b t).mp hmem).1)
  -- membership, error codes, no doubles
  refine ⟨fun b' u => ?_, fun u hsus => ?_, fun b' => ?_⟩
  · unfold MbSystem.suspend
    dsimp only
    by_cases hu : u = t
    · rw [hu, Function.update_self, Function.update_self]
      by_cases hb' : b' = b
      · rw [hb', Mailbox.setQueue_self, hperm.mem_iff]
        exact iff_of_true List.mem_cons_self ⟨rfl, c, rfl, hb⟩
      · rw [Mailbox.setQueue_of_ne _ _ hb']
        refine iff_of_false (hoff b') ?_
        rintro ⟨-, c', hc', rfl⟩
        exact hb' (Option.some.inj hc' ▸ hb)
    · rw [Function.update_of_ne hu, Function.update_of_ne hu, ← h.mem_iff]
      by_cases hb' : b' = b
      · rw [hb', Mailbox.setQueue_self, hperm.mem_iff, List.mem_cons, or_iff_right hu]
      · rw [Mailbox.setQueue_of_ne _ _ hb']
  · change Function.update y.suspended t true u = true at hsus
    change Function.update y.error t rtEok u = rtEok
    by_cases hu : u = t
    · rw [hu, Function.update_self]
    · rw [Function.update_of_ne hu] at hsus ⊢
      exact h.error u hsus
  · change ((y.mb.setQueue _ b).queue b').Nodup
    by_cases hb' : b' = b
    · rw [hb', Mailbox.setQueue_self, hperm.nodup_iff]
      exact List.nodup_cons.mpr ⟨hoff b, h.nodup b⟩
    · rw [Mailbox.setQueue_of_ne _ _ hb']
      exact h.nodup b'

/-- A thread leaves its queue. -/
theorem leave (h : y.Queued) (hqueue : ∀ b u, u ∈ y'.mb.queue b ↔ u ≠ t ∧ u ∈ y.mb.queue b)
    (hnodup : ∀ b, (y'.mb.queue b).Nodup) (hsuspended : y'.suspended = Function.update y.suspended t false)
    (hcalling : y'.calling = y.calling) (herror : ∀ u, u ≠ t → y'.error u = y.error u) :
    y'.Queued := by
  have hsus : ∀ u, y'.suspended u = true ↔ u ≠ t ∧ y.suspended u = true := by
    intro u
    rw [hsuspended]
    by_cases hu : u = t
    · rw [hu, Function.update_self]
      exact iff_of_false Bool.false_ne_true fun h => h.1 rfl
    · rw [Function.update_of_ne hu, and_iff_right hu]
  refine ⟨fun b u => ?_, fun u hu => ?_, hnodup⟩
  · rw [hqueue, hsus, h.mem_iff, hcalling, and_assoc]
  · obtain ⟨hne, hu⟩ := (hsus u).mp hu
    rw [herror u hne]
    exact h.error u hu

/-- Who is woken leaves it. -/
theorem resumeFirst (h : y.Queued) (b : Bool) : (y.resumeFirst b).Queued := by
  cases hqueue : y.mb.queue b with
  | nil =>
    rw [resumeFirst_nil hqueue]
    exact h
  | cons t threads =>
    have hnodup := h.nodup b
    rw [hqueue] at hnodup
    obtain ⟨ht, hthreads⟩ := List.nodup_cons.mp hnodup
    have hother : ∀ b', b' ≠ b → t ∉ y.mb.queue b' := by
      intro b' hb' hmem
      obtain ⟨-, c, hc, hsend⟩ := (h.mem_iff b t).mp (hqueue ▸ List.mem_cons_self)
      obtain ⟨-, c', hc', hsend'⟩ := (h.mem_iff b' t).mp hmem
      obtain rfl := Option.some.inj (hc.symm.trans hc')
      exact hb' (hsend'.symm.trans hsend)
    rw [resumeFirst_cons hqueue]
    refine h.leave (t := t) (fun b' u => ?_) (fun b' => ?_) rfl rfl fun u _ => rfl
    · dsimp only
      by_cases hb' : b' = b
      · rw [hb', Mailbox.setQueue_self, hqueue, List.mem_cons]
        refine ⟨fun hmem => ⟨fun heq => ht (heq ▸ hmem), .inr hmem⟩, fun hmem => ?_⟩
        exact hmem.2.resolve_left hmem.1
      · rw [Mailbox.setQueue_of_ne _ _ hb']
        exact ⟨fun hmem => ⟨fun heq => hother b' hb' (heq ▸ hmem), hmem⟩, And.right⟩
    · dsimp only
      by_cases hb' : b' = b
      · rw [hb', Mailbox.setQueue_self]
        exact hthreads
      · rw [Mailbox.setQueue_of_ne _ _ hb']
        exact h.nodup b'

end MbSystem.Queued

/-! ## Wakeups -/

/-- What a call can do that looks at the mailbox: it fails or waits because there is nothing for it, or
takes what there is. -/
inductive AttemptCase (y : MbSystem α) (t : ThreadId) (c : MbCall α) : MbSystem α → Prop where
  | fails {error : ThreadId → ℤ} {r : MbReturned α} (hroom : y.mb.room c.isSend = 0)
      (herror : ∀ u, u ≠ t → error u = y.error u) (hsent : r.sentValue = none)
      (hreceived : r.receivedValue = none) :
      AttemptCase y t c ({ y with error := error }.returns t r)
  | waits (hroom : y.mb.room c.isSend = 0) : AttemptCase y t c (y.suspend c.isSend t c)
  | takes {mb : Mailbox α} {r : MbReturned α} (hring : mb.RingOk)
      (hcontents : y.mb.contents ++ r.sentValue.toList = r.receivedValue.toList ++ mb.contents)
      (hqueue : ∀ b, mb.queue b = y.mb.queue b) (hroom : mb.room c.isSend + 1 ≤ y.mb.room c.isSend)
      (hroom' : mb.room (!c.isSend) ≤ y.mb.room (!c.isSend) + 1) :
      AttemptCase y t c (({ y with mb := mb }.resumeFirst !c.isSend).returns t r)

/-- A send or a receive, the first time or after a wakeup, is one of the cases. -/
theorem attempt_cases (hring : y.mb.RingOk) (t : ThreadId) (again : Bool) (c : MbCall α) :
    AttemptCase y t c (y.attempt t again c) := by
  have hle := hring.entry_le
  have herror : ∀ (e : ℤ) (u : ThreadId), u ≠ t →
      (if again then Function.update y.error t e else y.error) u = y.error u := by
    intro e u hu
    split_ifs
    · exact Function.update_of_ne hu ..
    · rfl
  -- a send finds the ring full or stores, a receive finds it empty or fetches
  cases c with
  | send value timeout =>
    unfold MbSystem.attempt MbSystem.rtMbSendWait
    dsimp only
    by_cases hfull : y.mb.entry = y.mb.size
    · have hroom : y.mb.room true = 0 := Nat.sub_eq_zero_of_le hfull.ge
      rw [if_pos hfull]
      by_cases htime : timeout = 0
      · rw [if_pos htime]
        exact .fails hroom (herror _) rfl rfl
      · rw [if_neg htime]
        exact AttemptCase.waits (c := .send value timeout) hroom
    · rw [if_neg hfull]
      apply AttemptCase.takes (c := .send value timeout)
      · exact hring.store hfull value
      · exact (hring.contents_store hfull value).symm
      · intro b
        cases b <;> rfl
      · change y.mb.size - (y.mb.entry + 1) + 1 ≤ y.mb.size - y.mb.entry
        omega
      · exact le_rfl
  | recv timeout =>
    unfold MbSystem.attempt MbSystem.rtMbRecv
    dsimp only
    by_cases hempty : y.mb.entry = 0
    · rw [if_pos hempty]
      by_cases htime : timeout = 0
      · rw [if_pos htime]
        exact .fails hempty (herror _) rfl rfl
      · rw [if_neg htime]
        exact AttemptCase.waits (c := .recv timeout) hempty
    · rw [if_neg hempty]
      apply AttemptCase.takes (c := .recv timeout)
      · exact hring.fetch hempty
      · exact (List.append_nil _).trans (hring.contents_fetch hempty)
      · intro b
        cases b <;> rfl
      · change y.mb.entry - 1 + 1 ≤ y.mb.entry
        omega
      · change y.mb.size - (y.mb.entry - 1) ≤ y.mb.size - y.mb.entry + 1
        omega

/-- A resume changes nothing for the others. -/
theorem resumeFirst_fields (y : MbSystem α) (b : Bool) :
    (y.resumeFirst b).calling = y.calling ∧ (y.resumeFirst b).error = y.error ∧
      (y.resumeFirst b).log = y.log ∧ (∀ b', (y.resumeFirst b).mb.room b' = y.mb.room b') ∧
      (∀ b', b' ≠ b → (y.resumeFirst b).mb.queue b' = y.mb.queue b') ∧
      ∀ t, y.suspended t = false → (y.resumeFirst b).suspended t = false := by
  cases hqueue : y.mb.queue b with
  | nil =>
    rw [MbSystem.resumeFirst_nil hqueue]
    exact ⟨rfl, rfl, rfl, fun _ => rfl, fun _ _ => rfl, fun _ h => h⟩
  | cons r threads =>
    rw [MbSystem.resumeFirst_cons hqueue]
    refine ⟨rfl, rfl, rfl, fun b' => y.mb.setQueue_room threads b b',
      fun b' hb' => y.mb.setQueue_of_ne threads hb', fun t ht => ?_⟩
    change Function.update y.suspended r false t = false
    by_cases htr : t = r
    · rw [htr, Function.update_self]
    · rw [Function.update_of_ne htr, ht]

/-- Each case keeps the queues. -/
theorem AttemptCase.queued (hcase : AttemptCase y t c y') (h : y.Queued)
    (hawake : y.suspended t = false) : y'.Queued := by
  cases hcase with
  | fails _ herror _ _ =>
    exact h.congr hawake (fun _ => rfl) rfl (fun u hu => Function.update_of_ne hu ..) herror
  | waits _ => exact h.suspend hawake rfl
  | @takes mb r _ _ hqueue _ _ =>
    have hmb : MbSystem.Queued { y with mb := mb } :=
      h.congr hawake hqueue rfl (fun _ _ => rfl) fun _ _ => rfl
    obtain ⟨-, -, -, -, -, hkept⟩ := resumeFirst_fields { y with mb := mb } (!c.isSend)
    exact (hmb.resumeFirst _).congr (hkept t hawake) (fun _ => rfl) rfl
      (fun u hu => Function.update_of_ne hu ..) fun _ _ => rfl

/-- Another state in which `u` has not changed. -/
theorem MbSystem.Woken.congr {u : ThreadId} (h : y.Woken b u)
    (hsuspended : y.suspended u = false → y'.suspended u = false) (hcalling : y'.calling u = y.calling u)
    (herror : y'.error u = y.error u) : y'.Woken b u :=
  ⟨hsuspended h.awake, herror.trans h.error, hcalling ▸ h.calling⟩

/-- The calls on the other side. -/
theorem MbSystem.Woken.ne {u : ThreadId} {b' : Bool} (h : y.Woken b' u) (hb' : b' ≠ b)
    (hside : ∀ c, y.calling t = some c → c.isSend = b) : u ≠ t := by
  rintro rfl
  obtain ⟨c, hc, rfl⟩ := h.calling
  exact hb' (hside c hc)

/-- Each case keeps enough wakeups on their way. -/
theorem AttemptCase.wakeupsOk (hcase : AttemptCase y t c y') (h : y.WakeupsOk) (hq : y.Queued)
    (hawake : y.suspended t = false) (hside : ∀ c', y.calling t = some c' → c'.isSend = c.isSend) :
    y'.WakeupsOk := by
  intro b
  -- `b` is the side that is looked at, and the call is on one of the two
  cases hcase with
  | @fails error r hroom herror _ _ =>
    by_cases hb : b = c.isSend
    · subst hb
      change Covered (y.mb.queue c.isSend) (y.mb.room c.isSend) _
      rw [hroom]
      exact Covered.zero _ _
    · refine (h b).mono id le_rfl fun u hu => ?_
      have hut := hu.ne hb hside
      exact hu.congr id (Function.update_of_ne hut ..) (herror u hut)
  | waits hroom =>
    have hroom' : ∀ b, (y.suspend c.isSend t c).mb.room b = y.mb.room b := fun b =>
      y.mb.setQueue_room _ _ b
    rw [hroom']
    by_cases hb : b = c.isSend
    · rw [hb, hroom]
      exact Covered.zero _ _
    · have hqueue : (y.suspend c.isSend t c).mb.queue b = y.mb.queue b := y.mb.setQueue_of_ne _ hb
      rw [hqueue]
      refine (h b).mono id le_rfl fun u hu => ?_
      have hut := hu.ne hb hside
      refine hu.congr (fun hsus => ?_) (Function.update_of_ne hut ..) (Function.update_of_ne hut ..)
      exact (Function.update_of_ne hut ..).trans hsus
  | @takes mb r _ _ hqueue hroom hroom' =>
    obtain ⟨hcalling, herror, -, hrooms, hqueues, hkept⟩ :=
      resumeFirst_fields { y with mb := mb } (!c.isSend)
    have hstays : ∀ b u, u ≠ t → y.Woken b u →
        (({ y with mb := mb }.resumeFirst !c.isSend).returns t r).Woken b u := by
      intro b u hut hu
      refine hu.congr (hkept u) ?_ (congrFun herror u)
      exact (Function.update_of_ne hut ..).trans (congrFun hcalling u)
    -- the call took a message or a slot, and made one for the other side
    change Covered (({ y with mb := mb }.resumeFirst !c.isSend).mb.queue b)
      (({ y with mb := mb }.resumeFirst !c.isSend).mb.room b) _
    rw [hrooms]
    by_cases hb : b = c.isSend
    · subst hb
      rw [hqueues _ (by cases c.isSend <;> simp)]
      change Covered (mb.queue c.isSend) (mb.room c.isSend) _
      rw [hqueue]
      exact (h c.isSend).take id hroom (hstays c.isSend)
    -- the other side: its first waiter is woken for what has come
    · obtain rfl : b = !c.isSend := by
        cases b <;> cases hc : c.isSend <;> simp_all
      cases hfirst : mb.queue (!c.isSend) with
      | nil =>
        rw [MbSystem.resumeFirst_nil hfirst]
        change Covered (mb.queue (!c.isSend)) _ _
        rw [hfirst]
        exact Covered.nil _ _
      | cons first threads =>
        have hfirst' : y.mb.queue (!c.isSend) = first :: threads := (hqueue _).symm.trans hfirst
        obtain ⟨hsus, hcall⟩ := (hq.mem_iff _ first).mp (hfirst' ▸ List.mem_cons_self)
        have hne : first ≠ t := by
          rintro rfl
          exact Bool.false_ne_true (hawake.symm.trans hsus)
        have hcov := h (!c.isSend)
        rw [hfirst'] at hcov
        have hrest : ({ y with mb := mb }.resumeFirst !c.isSend).mb.queue (!c.isSend) = threads := by
          rw [MbSystem.resumeFirst_cons hfirst]
          exact mb.setQueue_self threads _
        rw [hrest]
        refine hcov.wake hroom' (fun hu => ?_) ⟨?_, ?_, ?_⟩ fun u hu => hstays _ u (hu.ne hb hside) hu
        · exact Bool.false_ne_true (hu.awake.symm.trans hsus)
        · rw [MbSystem.resumeFirst_cons hfirst]
          exact Function.update_self ..
        · exact (congrFun herror first).trans (hq.error first hsus)
        · obtain ⟨c', hc', hsend⟩ := hcall
          refine ⟨c', ?_, hsend⟩
          exact (Function.update_of_ne hne ..).trans ((congrFun hcalling first).trans hc')

end Queues

/-! ## Runs -/

/-- Every message that was sent has been received or is in the mailbox, in the order they were sent in. -/
def MbSystem.Fifo (y : MbSystem α) : Prop :=
  y.log.filterMap MbReturned.sentValue =
    y.log.filterMap MbReturned.receivedValue ++ y.mb.contents

structure MbOk (y : MbSystem α) : Prop where
  ring : y.mb.RingOk
  fifo : y.Fifo
  queued : y.Queued
  wakeups : y.WakeupsOk

section Step

variable {y y' : MbSystem α} {t : ThreadId} {c : MbCall α}

/-- The queues hold no messages. -/
theorem Mailbox.setQueue_contents (mb : Mailbox α) (threads : List ThreadId) (b : Bool) :
    (mb.setQueue threads b).contents = mb.contents := by
  cases b <;> rfl

/-- The ring does not depend on the queues. -/
theorem Mailbox.RingOk.setQueue {mb : Mailbox α} (h : mb.RingOk) (threads : List ThreadId) (b : Bool) :
    (mb.setQueue threads b).RingOk := by
  cases b <;> exact ⟨h.entry_le, h.inOffset, h.outOffset⟩

/-- Waking somebody changes no message. -/
theorem resumeFirst_ring (y : MbSystem α) (b : Bool) (h : y.mb.RingOk) :
    (y.resumeFirst b).mb.RingOk ∧ (y.resumeFirst b).mb.contents = y.mb.contents := by
  cases hqueue : y.mb.queue b with
  | nil =>
    rw [MbSystem.resumeFirst_nil hqueue]
    exact ⟨h, rfl⟩
  | cons r threads =>
    rw [MbSystem.resumeFirst_cons hqueue]
    exact ⟨h.setQueue threads b, y.mb.setQueue_contents threads b⟩

/-- A call that returns adds its message to what was sent or received. -/
theorem filterMap_returns (f : MbReturned α → Option α) (y : MbSystem α) (t : ThreadId)
    (r : MbReturned α) : (y.returns t r).log.filterMap f = y.log.filterMap f ++ (f r).toList := by
  unfold MbSystem.returns
  rw [List.filterMap_append]
  cases h : f r <;> simp [h]

/-- Each case keeps the order of the messages. -/
theorem AttemptCase.fifo (hcase : AttemptCase y t c y') (hring : y.mb.RingOk) (h : y.Fifo) :
    y'.mb.RingOk ∧ y'.Fifo := by
  unfold MbSystem.Fifo at h ⊢
  cases hcase with
  | @fails error r _ _ hsent hreceived =>
    refine ⟨hring, ?_⟩
    rw [filterMap_returns, filterMap_returns, hsent, hreceived]
    simpa [MbSystem.returns] using h
  | waits _ =>
    refine ⟨hring.setQueue _ _, ?_⟩
    unfold MbSystem.suspend
    dsimp only
    rw [Mailbox.setQueue_contents]
    exact h
  | @takes mb r hring' hcontents _ _ _ =>
    obtain ⟨hresumed, hsame⟩ := resumeFirst_ring { y with mb := mb } (!c.isSend) hring'
    obtain ⟨-, -, hlog, -⟩ := resumeFirst_fields { y with mb := mb } (!c.isSend)
    refine ⟨hresumed, ?_⟩
    rw [filterMap_returns, filterMap_returns, hlog, h, List.append_assoc, List.append_assoc, hcontents]
    exact congrArg (fun contents => _ ++ (_ ++ contents)) hsame.symm

/-- Each case keeps the invariant. -/
theorem AttemptCase.ok (hcase : AttemptCase y t c y') (h : MbOk y) (hawake : y.suspended t = false)
    (hside : ∀ c', y.calling t = some c' → c'.isSend = c.isSend) : MbOk y' :=
  ⟨(hcase.fifo h.ring h.fifo).1, (hcase.fifo h.ring h.fifo).2, hcase.queued h.queued hawake,
    hcase.wakeupsOk h.wakeups h.queued hawake hside⟩

/-- A call that fails after a wait. -/
theorem MbOk.returns (h : MbOk y) (hawake : y.suspended t = false) (herror : y.error t ≠ rtEok)
    {r : MbReturned α} (hsent : r.sentValue = none) (hreceived : r.receivedValue = none) :
    MbOk (y.returns t r) where
  ring := h.ring
  fifo := by
    have hfifo := h.fifo
    unfold MbSystem.Fifo at hfifo ⊢
    rw [filterMap_returns, filterMap_returns, hsent, hreceived]
    simpa [MbSystem.returns] using hfifo
  queued := h.queued.congr hawake (fun _ => rfl) rfl (fun u hu => Function.update_of_ne hu ..)
    fun _ _ => rfl
  wakeups b := by
    refine (h.wakeups b).mono id le_rfl fun u hu => ?_
    have hut : u ≠ t := by
      rintro rfl
      exact herror hu.error
    exact hu.congr id (Function.update_of_ne hut ..) rfl

/-- The time of a thread is over. -/
theorem MbOk.timeout (h : MbOk y) (hsus : y.suspended t) :
    MbOk { y with
      mb := { y.mb with
        suspendThread := y.mb.suspendThread.erase t
        suspendSenderThread := y.mb.suspendSenderThread.erase t }
      suspended := Function.update y.suspended t false
      error := Function.update y.error t (-rtEtimeout) } := by
  have hqueue : ∀ b, Mailbox.queue { y.mb with
      suspendThread := y.mb.suspendThread.erase t
      suspendSenderThread := y.mb.suspendSenderThread.erase t } b = (y.mb.queue b).erase t := by
    intro b
    cases b <;> rfl
  refine ⟨⟨h.ring.entry_le, h.ring.inOffset, h.ring.outOffset⟩, h.fifo, ?_, fun b => ?_⟩
  · refine h.queued.leave (t := t) (fun b u => ?_) (fun b => ?_) rfl rfl
      fun u hu => Function.update_of_ne hu ..
    · rw [hqueue]
      exact (h.queued.nodup b).mem_erase_iff
    · rw [hqueue]
      exact (h.queued.nodup b).erase t
  · dsimp only
    rw [hqueue]
    have hroom : Mailbox.room { y.mb with
        suspendThread := y.mb.suspendThread.erase t
        suspendSenderThread := y.mb.suspendSenderThread.erase t } b = y.mb.room b := by
      cases b <;> rfl
    rw [hroom]
    refine (h.wakeups b).mono (fun hnil => by rw [hnil]; rfl) le_rfl fun u hu => ?_
    -- a thread that was woken is not suspended, so it is another one
    have hut : u ≠ t := by
      rintro rfl
      exact Bool.false_ne_true (hu.awake.symm.trans hsus)
    refine hu.congr (fun hawake => ?_) rfl (Function.update_of_ne hut ..)
    exact (Function.update_of_ne hut ..).trans hawake

theorem MbOk.step (h : MbOk y) {e : MbEvent α} (hstep : mbStep y e = some y') : MbOk y' := by
  unfold mbStep at hstep
  cases e with
  | call t c =>
    dsimp only at hstep
    split_ifs at hstep with hmay
    obtain rfl := Option.some.inj hstep
    refine (attempt_cases h.ring t false c).ok h hmay.1 fun c' hc' => ?_
    rw [Option.isNone_iff_eq_none.mp hmay.2] at hc'
    exact absurd hc'.symm (Option.some_ne_none c')
  | timeout t =>
    dsimp only at hstep
    split_ifs at hstep with htime
    obtain rfl := Option.some.inj hstep
    exact h.timeout htime.1
  | goOn t ticks =>
    dsimp only at hstep
    split_ifs at hstep with hsus herror
    · obtain ⟨c, -, rfl⟩ := Option.map_eq_some_iff.mp hstep
      exact h.returns (Bool.eq_false_iff.mpr hsus) herror rfl rfl
    · obtain ⟨c, hc, rfl⟩ := Option.map_eq_some_iff.mp hstep
      refine (attempt_cases h.ring t true (c.after ticks)).ok h (Bool.eq_false_iff.mpr hsus)
        fun c' hc' => ?_
      obtain rfl := Option.some.inj (hc.symm.trans hc')
      cases c <;> rfl
  | changePriority t priority =>
    obtain rfl := Option.some.inj hstep
    exact ⟨h.ring, h.fifo, ⟨h.queued.mem_iff, h.queued.error, h.queued.nodup⟩, fun b =>
      (h.wakeups b).mono id le_rfl fun u hu => ⟨hu.awake, hu.error, hu.calling⟩⟩

end Step

section Runs

/-- A new mailbox, with nobody in a call. -/
def mbStart (msgPool : ℕ → α) (size : ℕ) (flag : IpcFlag) (error : ThreadId → ℤ)
    (currentPriority : ThreadId → UInt8) : MbSystem α :=
  ⟨rtMbInit msgPool size flag, fun _ => none, fun _ => false, error, currentPriority, []⟩

variable {msgPool : ℕ → α} {size : ℕ} {flag : IpcFlag} {error : ThreadId → ℤ}
  {currentPriority : ThreadId → UInt8} {events : List (MbEvent α)} {y : MbSystem α}

/-- A mailbox that was just set up is empty and nobody waits. -/
theorem mbStart_ok : MbOk (mbStart msgPool size flag error currentPriority) := by
  have hempty : ∀ b, (mbStart msgPool size flag error currentPriority).mb.queue b = [] := by
    intro b
    cases b <;> rfl
  refine ⟨⟨Nat.zero_le size, (Nat.zero_mod size).symm, id⟩, rfl, ⟨fun b t => ?_, fun t hsus => ?_,
    fun b => ?_⟩, fun b => ?_⟩
  · rw [hempty]
    exact iff_of_false List.not_mem_nil fun h => Bool.false_ne_true h.1
  · exact absurd hsus Bool.false_ne_true
  · rw [hempty]
    exact List.nodup_nil
  · rw [hempty]
    exact Covered.nil _ _

/-- The invariant holds in every state of a run. -/
theorem mbRun_ok (hrun : mbRun (mbStart msgPool size flag error currentPriority) events = some y) :
    MbOk y :=
  run_invariant (fun _ _ _ h hstep => MbOk.step h hstep) mbStart_ok hrun

/-- In any order of steps of the threads, messages are received once each, in the order they were sent in,
and the mailbox never holds more than its size. -/
theorem mbRun_fifo (hrun : mbRun (mbStart msgPool size flag error currentPriority) events = some y) :
    y.log.filterMap MbReturned.sentValue =
        y.log.filterMap MbReturned.receivedValue ++ y.mb.contents ∧
      y.mb.contents.length ≤ y.mb.size := by
  have hok := mbRun_ok hrun
  refine ⟨hok.fifo, ?_⟩
  unfold Mailbox.contents
  rw [List.length_map, List.length_range]
  exact hok.ring.entry_le

/-- A receiver is woken for a message that another one takes, and waits again. -/
theorem mbRun_fifo_overtaken :
    ∃ y, mbRun (mbStart (fun _ => 0) 1 .fifo (fun _ => 0) fun _ => 10)
      [.call 1 (.recv (-1)), .call 2 (.send 7 0), .call 3 (.recv 0), .goOn 1 4, .call 2 (.send 8 5),
        .call 2 (.send 9 5), .goOn 1 0] = some y ∧
      (y.log.filterMap MbReturned.sentValue =
        y.log.filterMap MbReturned.receivedValue ++ y.mb.contents ∧
      y.mb.contents.length ≤ y.mb.size) := by
  obtain ⟨y, hy⟩ := Option.isSome_iff_exists.mp (by decide +kernel :
    (mbRun (mbStart (fun _ => 0) 1 .fifo (fun _ => 0) fun _ => 10)
      [.call 1 (.recv (-1)), .call 2 (.send 7 0), .call 3 (.recv 0), .goOn 1 4, .call 2 (.send 8 5),
        .call 2 (.send 9 5), .goOn 1 0]).isSome)
  exact ⟨y, hy, mbRun_fifo hy⟩

/-- While receivers wait, at least as many have been woken and not looked yet as there are messages, and
senders likewise; so when everybody has looked, nobody waits for what is there. -/
theorem mbRun_wakeups (hrun : mbRun (mbStart msgPool size flag error currentPriority) events = some y)
    (b : Bool) :
    Covered (y.mb.queue b) (y.mb.room b) (y.Woken b) ∧
      ((∀ t, ¬y.Woken b t) → y.mb.queue b ≠ [] → y.mb.room b = 0) := by
  have hcovered := (mbRun_ok hrun).wakeups b
  refine ⟨hcovered, fun hnone hne => ?_⟩
  obtain ⟨w, -, hw, hle⟩ := hcovered hne
  obtain rfl : w = [] := List.eq_nil_iff_forall_not_mem.mpr fun t ht => hnone t (hw t ht)
  exact Nat.le_zero.mp hle

/-- Two receivers wait, and one of them is woken. -/
theorem mbRun_wakeups_two :
    ∃ y, mbRun (mbStart (fun _ => 0) 2 .prio (fun _ => 0) fun t => .ofNat t)
      [.call 2 (.recv 9), .call 1 (.recv (-1)), .call 3 (.send 7 0)] = some y ∧
      (Covered (y.mb.queue false) (y.mb.room false) (y.Woken false) ∧
        ((∀ t, ¬y.Woken false t) → y.mb.queue false ≠ [] → y.mb.room false = 0)) := by
  obtain ⟨y, hy⟩ := Option.isSome_iff_exists.mp (by decide +kernel :
    (mbRun (mbStart (fun _ => 0) 2 .prio (fun _ => 0) fun t => .ofNat t)
      [.call 2 (.recv 9), .call 1 (.recv (-1)), .call 3 (.send 7 0)]).isSome)
  exact ⟨y, hy, mbRun_wakeups hy false⟩

end Runs

end Model

end Stm32Board.Rtos
