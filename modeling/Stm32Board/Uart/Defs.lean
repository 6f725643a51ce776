import Stm32Board.Common.Mealy
import Stm32Board.Common.RingBuffer
import Mathlib.Data.Nat.Notation

/-!
# The UART echo thread

`uart_input` and `serial_thread_entry`, with the receive interrupt of the serial framework and the
semaphore they meet at. The reader is cut where an interrupt can come in: after a read, before a
take, while it is suspended, and between the echo and `rt_device_close`.

Reference: `componet_library/uart2/UART2.c`, `components/drivers/serial/serial.c`, `src/ipc.c`.
-/

namespace Stm32Board.Uart

open Common

/-! ## The receive FIFO of the serial framework -/

/-- The `bufsz` that `uart_config` asks for. -/
abbrev bufsz : ℕ := 128

/-- `struct rt_serial_rx_fifo`. -/
abbrev RxFifo := RingBuffer UInt8 bufsz

/-- The FIFO as `rt_serial_open` sets it up. -/
def rxFifoInit : RxFifo where
  slots := fun _ => 0
  put := 0
  get := 0
  full := false
  two_le := by decide
  full_ne := by simp

/-- The loop of `rt_hw_serial_isr` over the bytes `getc` hands out. -/
def rxDrain (fifo : RxFifo) (bytes : List UInt8) : RxFifo := bytes.foldl RingBuffer.push fifo

/-- The loop discards a byte. -/
def rxOverrun : RxFifo → List UInt8 → Bool
  | _, [] => false
  | fifo, ch :: bytes =>
    decide (RingBuffer.next fifo.put = fifo.get) || rxOverrun (fifo.push ch) bytes

/-! ## The semaphore -/

/-- `rt_sem_release`: the value after it, and whether a suspended thread was resumed. -/
def rtSemRelease (suspended : Bool) (value : UInt16) : UInt16 × Bool :=
  if suspended then (value, true) else (value + 1, false)

/-- `rt_sem_take` for ever: the value after it, or nothing when the thread is suspended. -/
def rtSemTake (value : UInt16) : Option UInt16 := if value > 0 then some (value - 1) else none

/-! ## The reader and the interrupt -/

/-- Where `serial_thread_entry` stands. -/
inductive ReaderPc where
  | read
  | take
  | blocked
  | echo (ch : UInt8)
  | closing
  | exited
deriving DecidableEq

/-- `serial_rx` (gone once the device is closed), the value of `rt_urat_sem`, and the reader. -/
structure UartState where
  serialRx : Option RxFifo
  semValue : UInt16
  pc : ReaderPc

/-- The state when `uart_sample` starts the thread. -/
def uartSample : UartState where
  serialRx := some rxFifoInit
  semValue := 0
  pc := .read

/-- The two parties: an interrupt that finds at least one byte, and one step of the thread. -/
inductive UartEvent where
  | rxInterrupt (ch : UInt8) (more : List UInt8)
  | reader
deriving DecidableEq

/-- What a step receives and echoes, and whether it discards a byte. -/
structure UartOutput where
  received : List UInt8 := []
  echoed : List UInt8 := []
  overrun : Bool := false

/-- `uart_input`: release `rt_urat_sem`; a reader resumed from its take reads again. -/
def uartInput (s : UartState) : UartState :=
  let r := rtSemRelease (s.pc = .blocked) s.semValue
  { s with semValue := r.1, pc := if r.2 then .read else s.pc }

/-- The receive interrupt: store the bytes, then call `uart_input` if the FIFO holds any. -/
def rtHwSerialIsr (fifo : RxFifo) (bytes : List UInt8) (s : UartState) : UartState :=
  let fifo := rxDrain fifo bytes
  let s := { s with serialRx := some fifo }
  if fifo.len ≠ 0 then uartInput s else s

/-- The byte that ends the thread. -/
def bang : UInt8 := 33

/-- One step of `serial_thread_entry`; a suspended or finished thread makes none. -/
def serialThreadStep (s : UartState) : Option (UartState × UartOutput) :=
  match s.pc with
  | .read =>
    match s.serialRx with
    | none => none
    | some fifo =>
      match fifo.pop with
      | none => some ({ s with pc := .take }, {})
      | some (ch, fifo') => some ({ s with serialRx := some fifo', pc := .echo ch }, {})
  | .take =>
    match rtSemTake s.semValue with
    | none => some ({ s with pc := .blocked }, {})
    | some value => some ({ s with semValue := value, pc := .read }, {})
  | .blocked => none
  | .echo ch => some ({ s with pc := if ch = bang then .closing else .read }, { echoed := [ch] })
  | .closing => some ({ s with serialRx := none, pc := .exited }, {})
  | .exited => none

/-- One step of either party; a closed device raises no interrupt. -/
def uartStep (s : UartState) : UartEvent → Option (UartState × UartOutput)
  | .rxInterrupt ch more =>
    match s.serialRx with
    | none => none
    | some fifo =>
      some (rtHwSerialIsr fifo (ch :: more) s,
        { received := ch :: more, overrun := rxOverrun fifo (ch :: more) })
  | .reader => serialThreadStep s

/-! ## The moves of the reader -/

/-- The moves of the reader, with what each echoes. -/
inductive ReaderMove (s : UartState) : UartState → List UInt8 → Prop where
  | empty {fifo : RxFifo} (hpc : s.pc = .read) (hrx : s.serialRx = some fifo)
      (hfifo : fifo.toList = []) : ReaderMove s { s with pc := .take } []
  | byte {fifo fifo' : RxFifo} {ch : UInt8} (hpc : s.pc = .read) (hrx : s.serialRx = some fifo)
      (hfifo : fifo.toList = ch :: fifo'.toList) :
      ReaderMove s { s with serialRx := some fifo', pc := .echo ch } []
  | token (hpc : s.pc = .take) (hvalue : 0 < s.semValue) :
      ReaderMove s { s with semValue := s.semValue - 1, pc := .read } []
  | suspend (hpc : s.pc = .take) (hvalue : ¬0 < s.semValue) :
      ReaderMove s { s with pc := .blocked } []
  | echo {ch : UInt8} (hpc : s.pc = .echo ch) :
      ReaderMove s { s with pc := if ch = bang then .closing else .read } [ch]
  | close (hpc : s.pc = .closing) : ReaderMove s { s with serialRx := none, pc := .exited } []

/-- Every step of the thread is one of the moves. -/
theorem serialThreadStep_cases {s t : UartState} {o : UartOutput}
    (h : serialThreadStep s = some (t, o)) :
    ReaderMove s t o.echoed ∧ o.received = [] ∧ o.overrun = false := by
  rw [serialThreadStep] at h
  -- one case for each place of the thread
  split at h
  case h_1 hpc =>
    split at h
    · exact absurd h (by simp)
    · rename_i fifo hrx
      split at h
      · rename_i hpop
        obtain ⟨rfl, rfl⟩ := Prod.mk.inj (Option.some.inj h)
        exact ⟨.empty hpc hrx ((RingBuffer.pop_eq_none_iff fifo).mp hpop), rfl, rfl⟩
      · rename_i ch fifo' hpop
        obtain ⟨rfl, rfl⟩ := Prod.mk.inj (Option.some.inj h)
        exact ⟨.byte hpc hrx (RingBuffer.toList_of_pop hpop), rfl, rfl⟩
  case h_2 hpc =>
    by_cases hvalue : 0 < s.semValue
    · rw [rtSemTake, if_pos hvalue] at h
      obtain ⟨rfl, rfl⟩ := Prod.mk.inj (Option.some.inj h)
      exact ⟨.token hpc hvalue, rfl, rfl⟩
    · rw [rtSemTake, if_neg hvalue] at h
      obtain ⟨rfl, rfl⟩ := Prod.mk.inj (Option.some.inj h)
      exact ⟨.suspend hpc hvalue, rfl, rfl⟩
  case h_3 => exact absurd h (by simp)
  case h_4 ch hpc =>
    obtain ⟨rfl, rfl⟩ := Prod.mk.inj (Option.some.inj h)
    exact ⟨.echo hpc, rfl, rfl⟩
  case h_5 hpc =>
    obtain ⟨rfl, rfl⟩ := Prod.mk.inj (Option.some.inj h)
    exact ⟨.close hpc, rfl, rfl⟩
  case h_6 => exact absurd h (by simp)

/-! ## What a run received and echoed -/

def received (outs : List UartOutput) : List UInt8 := outs.flatMap (·.received)

def echoed (outs : List UartOutput) : List UInt8 := outs.flatMap (·.echoed)

/-- No step of the run discarded a byte. -/
def NoOverrun (outs : List UartOutput) : Prop := ∀ o ∈ outs, o.overrun = false

/-! ## The interrupt's loop -/

/-- The bytes are taken one after the other. -/
theorem rxDrain_cons (fifo : RxFifo) (ch : UInt8) (bytes : List UInt8) :
    rxDrain fifo (ch :: bytes) = rxDrain (fifo.push ch) bytes := rfl

/-- Without an overrun the bytes are appended. -/
theorem toList_rxDrain {fifo : RxFifo} {bytes : List UInt8} (h : rxOverrun fifo bytes = false) :
    (rxDrain fifo bytes).toList = fifo.toList ++ bytes := by
  induction bytes generalizing fifo with
  | nil => exact (List.append_nil _).symm
  | cons ch bytes ih =>
    rw [rxOverrun, Bool.or_eq_false_iff, decide_eq_false_iff_not,
      RingBuffer.next_put_eq_get_iff] at h
    have hroom : fifo.len + 1 < bufsz := by
      have := fifo.len_lt
      omega
    rw [rxDrain_cons, ih h.2, RingBuffer.toList_push_of_room hroom, List.append_assoc]
    rfl

/-- Draining never empties the FIFO. -/
theorem len_rxDrain_pos {fifo : RxFifo} (h : 0 < fifo.len) (bytes : List UInt8) :
    0 < (rxDrain fifo bytes).len := by
  induction bytes generalizing fifo with
  | nil => exact h
  | cons ch bytes ih => exact ih (fifo.len_push_pos ch)

/-- An interrupt leaves a byte to read, so it always calls `uart_input`. -/
theorem rtHwSerialIsr_eq (fifo : RxFifo) (ch : UInt8) (more : List UInt8) (s : UartState) :
    rtHwSerialIsr fifo (ch :: more) s =
      uartInput { s with serialRx := some (rxDrain fifo (ch :: more)) } := by
  have h : (rxDrain fifo (ch :: more)).len ≠ 0 :=
    (len_rxDrain_pos (fifo.len_push_pos ch) more).ne'
  exact if_pos h

/-- A release resumes a suspended reader and otherwise adds a token, modulo 2^16. -/
theorem uartInput_eq (s : UartState) :
    uartInput s = if s.pc = .blocked then { s with pc := .read }
      else { s with semValue := s.semValue + 1 } := by
  by_cases h : s.pc = .blocked <;> simp [uartInput, rtSemRelease, h]

/-- An interrupt comes to an open device, and resumes the reader or adds a token. -/
theorem uartStep_interrupt {s t : UartState} {o : UartOutput} {ch : UInt8} {more : List UInt8}
    (h : uartStep s (.rxInterrupt ch more) = some (t, o)) :
    ∃ fifo, s.serialRx = some fifo ∧
      t = uartInput { s with serialRx := some (rxDrain fifo (ch :: more)) } ∧
      o = { received := ch :: more, overrun := rxOverrun fifo (ch :: more) } := by
  rw [uartStep] at h
  split at h
  · exact absurd h (by simp)
  · rename_i fifo hrx
    obtain ⟨rfl, rfl⟩ := Prod.mk.inj (Option.some.inj h)
    exact ⟨fifo, hrx, rtHwSerialIsr_eq fifo ch more s, rfl⟩

end Stm32Board.Uart
