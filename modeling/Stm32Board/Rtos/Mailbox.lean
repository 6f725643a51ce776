import Stm32Board.Rtos.Lists
import Mathlib.Data.Nat.ModEq

/-!
# Mailboxes

Reference: `rt_mb_send_wait` and `rt_mb_recv` of `rt-thread/src/ipc.c`.

Threads send messages to a mailbox and receive them, in any order of their steps. A thread that has to wait
looks again when it is woken, and somebody else may have been faster. The messages are in a ring, which a
send makes longer at its end (`contents_store`) and a receive shorter at its start (`contents_fetch`).
-/

namespace Stm32Board.Rtos

open At (rtEok rtEtimeout)

def rtEfull : ℤ := 3

/-- `struct rt_mailbox`: receivers wait in `suspendThread`. The offsets and `entry` are at most `size`,
which is a number of 16 bits. -/
structure Mailbox (α : Type) where
  msgPool : ℕ → α
  size : ℕ
  entry : ℕ
  inOffset : ℕ
  outOffset : ℕ
  flag : IpcFlag
  suspendThread : List ThreadId
  suspendSenderThread : List ThreadId

/-- `rt_mb_init`. -/
def rtMbInit {α : Type} (msgPool : ℕ → α) (size : ℕ) (flag : IpcFlag) : Mailbox α :=
  ⟨msgPool, size, 0, 0, 0, flag, [], []⟩

inductive MbCall (α : Type) where
  | send (value : α) (timeout : ℤ)
  | recv (timeout : ℤ)
deriving DecidableEq, Repr

/-- What a call returns with. -/
inductive MbReturned (α : Type) where
  | sent (t : ThreadId) (value : α)
  | received (t : ThreadId) (value : α)
  | failed (t : ThreadId) (call : MbCall α) (error : ℤ)
deriving DecidableEq, Repr

/-- A mailbox and its threads, with the calls they are in; the calls that returned are in `log`, the last
one at its end. -/
structure MbSystem (α : Type) where
  mb : Mailbox α
  calling : ThreadId → Option (MbCall α)
  suspended : ThreadId → Bool
  error : ThreadId → ℤ
  currentPriority : ThreadId → UInt8
  log : List (MbReturned α)

section Model

variable {α : Type}

namespace Mailbox

/-- The queue of the receivers, or that of the senders. -/
def queue (mb : Mailbox α) : Bool → List ThreadId
  | false => mb.suspendThread
  | true => mb.suspendSenderThread

def setQueue (mb : Mailbox α) (threads : List ThreadId) : Bool → Mailbox α
  | false => { mb with suspendThread := threads }
  | true => { mb with suspendSenderThread := threads }

def store (mb : Mailbox α) (value : α) : Mailbox α :=
  let inOffset := mb.inOffset + 1
  { mb with
    msgPool := Function.update mb.msgPool mb.inOffset value
    inOffset := if inOffset ≥ mb.size then 0 else inOffset
    entry := mb.entry + 1 }

def value (mb : Mailbox α) : α := mb.msgPool mb.outOffset

def fetch (mb : Mailbox α) : Mailbox α :=
  let outOffset := mb.outOffset + 1
  { mb with
    outOffset := if outOffset ≥ mb.size then 0 else outOffset
    entry := mb.entry - 1 }

end Mailbox

namespace MbSystem

/-- A call returns. -/
def returns (y : MbSystem α) (t : ThreadId) (r : MbReturned α) : MbSystem α :=
  { y with calling := Function.update y.calling t none, log := y.log ++ [r] }

/-- `rt_ipc_list_suspend`, in a call. -/
def suspend (y : MbSystem α) (b : Bool) (t : ThreadId) (c : MbCall α) : MbSystem α :=
  { y with
    mb := y.mb.setQueue (insertWaiting y.currentPriority y.mb.flag t (y.mb.queue b)) b
    calling := Function.update y.calling t (some c)
    suspended := Function.update y.suspended t true
    error := Function.update y.error t rtEok }

/-- `rt_ipc_list_resume`, if somebody waits. -/
def resumeFirst (y : MbSystem α) (b : Bool) : MbSystem α :=
  match y.mb.queue b with
  | [] => y
  | t :: threads =>
    { y with
      mb := y.mb.setQueue threads b
      suspended := Function.update y.suspended t false }

/-- The loop of `rt_mb_send_wait` up to the next wait, and what follows it; `again` says that the thread
has waited before. -/
def rtMbSendWait (y : MbSystem α) (t : ThreadId) (value : α) (timeout : ℤ) (again : Bool) :
    MbSystem α :=
  if y.mb.entry = y.mb.size then
    if timeout = 0 then
      { y with error := if again then Function.update y.error t rtEok else y.error }.returns t
        (.failed t (.send value timeout) (-rtEfull))
    else y.suspend true t (.send value timeout)
  else ({ y with mb := y.mb.store value }.resumeFirst false).returns t (.sent t value)

/-- The same of `rt_mb_recv`. -/
def rtMbRecv (y : MbSystem α) (t : ThreadId) (timeout : ℤ) (again : Bool) : MbSystem α :=
  if y.mb.entry = 0 then
    if timeout = 0 then
      { y with error := if again then Function.update y.error t (-rtEtimeout) else y.error }.returns t
        (.failed t (.recv timeout) (-rtEtimeout))
    else y.suspend false t (.recv timeout)
  else ({ y with mb := y.mb.fetch }.resumeFirst true).returns t (.received t y.mb.value)

def attempt (y : MbSystem α) (t : ThreadId) (again : Bool) : MbCall α → MbSystem α
  | .send value timeout => y.rtMbSendWait t value timeout again
  | .recv timeout => y.rtMbRecv t timeout again

end MbSystem

def MbCall.timeout : MbCall α → ℤ
  | .send _ timeout | .recv timeout => timeout

def MbCall.isSend : MbCall α → Bool
  | .send _ _ => true
  | .recv _ => false

/-- What is left of a timeout after some ticks. -/
def remaining (timeout : ℤ) (ticks : ℕ) : ℤ :=
  if timeout > 0 then
    -- `tick_delta` is unsigned, so the difference is taken in 32 bits, and then read as a signed number
    let timeout := (UInt32.ofInt timeout - UInt32.ofNat ticks).toInt32.toInt
    if timeout < 0 then 0 else timeout
  else timeout

def MbCall.after (ticks : ℕ) : MbCall α → MbCall α
  | .send value timeout => .send value (remaining timeout ticks)
  | .recv timeout => .recv (remaining timeout ticks)

/-- A thread makes a call, its time is over, it goes on after some ticks in its call, or its priority
changes. -/
inductive MbEvent (α : Type) where
  | call (t : ThreadId) (c : MbCall α)
  | timeout (t : ThreadId)
  | goOn (t : ThreadId) (ticks : ℕ)
  | changePriority (t : ThreadId) (priority : UInt8)
deriving DecidableEq, Repr

def mbStep (y : MbSystem α) : MbEvent α → Option (MbSystem α)
  | .call t c =>
    if y.suspended t = false ∧ (y.calling t).isNone then some (y.attempt t false c) else none
  | .timeout t =>
    if y.suspended t ∧ (y.calling t).any (fun c => c.timeout > 0) then
      some
        { y with
          mb := { y.mb with
            suspendThread := y.mb.suspendThread.erase t
            suspendSenderThread := y.mb.suspendSenderThread.erase t }
          suspended := Function.update y.suspended t false
          error := Function.update y.error t (-rtEtimeout) }
    else none
  | .goOn t ticks =>
    if y.suspended t then none
    else
      (y.calling t).map fun c =>
        if y.error t ≠ rtEok then y.returns t (.failed t c (y.error t))
        else y.attempt t true (c.after ticks)
  | .changePriority t priority =>
    some { y with currentPriority := Function.update y.currentPriority t priority }

def mbRun (y : MbSystem α) (events : List (MbEvent α)) : Option (MbSystem α) :=
  events.foldlM mbStep y

/-- The messages that were sent, and those that were received, in order. -/
def MbReturned.sentValue : MbReturned α → Option α
  | .sent _ value => some value
  | .received _ _ | .failed _ _ _ => none

def MbReturned.receivedValue : MbReturned α → Option α
  | .received _ value => some value
  | .sent _ _ | .failed _ _ _ => none

/-! ## The ring of messages -/

namespace Mailbox

/-- The messages, the oldest first. -/
def contents (mb : Mailbox α) : List α :=
  (List.range mb.entry).map fun i => mb.msgPool ((mb.outOffset + i) % mb.size)

structure RingOk (mb : Mailbox α) : Prop where
  entry_le : mb.entry ≤ mb.size
  inOffset : mb.inOffset = (mb.outOffset + mb.entry) % mb.size
  outOffset : 0 < mb.size → mb.outOffset < mb.size

/-- An offset that moves on. -/
theorem next_eq_mod {i n : ℕ} (h : i < n) : (if i + 1 ≥ n then 0 else i + 1) = (i + 1) % n := by
  split_ifs with hn
  · rw [show i + 1 = n by omega, Nat.mod_self]
  · exact (Nat.mod_eq_of_lt (by omega)).symm

namespace RingOk

variable {mb : Mailbox α}

/-- A message goes into the next slot. -/
theorem store (h : mb.RingOk) (hroom : mb.entry ≠ mb.size) (value : α) : (mb.store value).RingOk where
  entry_le := Nat.lt_of_le_of_ne h.entry_le hroom
  inOffset := by
    have hin : mb.inOffset < mb.size := by
      rw [h.inOffset]
      exact Nat.mod_lt _ (Nat.zero_lt_of_ne_zero fun hzero => hroom (by have := h.entry_le; omega))
    have hnext := next_eq_mod hin
    refine hnext.trans ?_
    rw [h.inOffset, Nat.mod_add_mod]
    rfl
  outOffset := h.outOffset

/-- It is behind the others. -/
theorem contents_store (h : mb.RingOk) (hroom : mb.entry ≠ mb.size) (value : α) :
    (mb.store value).contents = mb.contents ++ [value] := by
  have hlt := Nat.lt_of_le_of_ne h.entry_le hroom
  unfold contents Mailbox.store
  dsimp only
  rw [List.range_succ, List.map_append, List.map_singleton, ← h.inOffset, Function.update_self]
  congr 1
  refine List.map_congr_left fun i hi => Function.update_of_ne (fun heq => ?_) ..
  have hi := List.mem_range.mp hi
  rw [h.inOffset] at heq
  have hmod : i % mb.size = mb.entry % mb.size := Nat.ModEq.add_left_cancel' mb.outOffset heq
  rw [Nat.mod_eq_of_lt (hi.trans hlt), Nat.mod_eq_of_lt hlt] at hmod
  omega

/-- The first message is taken out. -/
theorem fetch (h : mb.RingOk) (hentry : mb.entry ≠ 0) : mb.fetch.RingOk where
  entry_le := (Nat.sub_le _ _).trans h.entry_le
  inOffset := by
    have hout := h.outOffset (by have := h.entry_le; omega)
    change mb.inOffset = ((if mb.outOffset + 1 ≥ mb.size then 0 else mb.outOffset + 1) +
      (mb.entry - 1)) % mb.size
    rw [next_eq_mod hout, Nat.mod_add_mod, h.inOffset]
    congr 1
    omega
  outOffset hsize := by
    have hsize : 0 < mb.size := hsize
    change (if mb.outOffset + 1 ≥ mb.size then 0 else mb.outOffset + 1) < mb.size
    split_ifs <;> omega

/-- It was in front of the others. -/
theorem contents_fetch (h : mb.RingOk) (hentry : mb.entry ≠ 0) :
    mb.contents = mb.value :: mb.fetch.contents := by
  have hout := h.outOffset (by have := h.entry_le; omega)
  obtain ⟨n, hn⟩ := Nat.exists_eq_succ_of_ne_zero hentry
  unfold contents Mailbox.fetch value
  dsimp only
  rw [next_eq_mod hout, hn, List.range_succ_eq_map, List.map_cons, List.map_map, Nat.add_zero,
    Nat.mod_eq_of_lt hout]
  refine congrArg (List.cons _) (List.map_congr_left fun i _ => ?_)
  rw [Function.comp_apply, Nat.mod_add_mod]
  congr 2
  omega

end RingOk

end Mailbox

end Model

end Stm32Board.Rtos
