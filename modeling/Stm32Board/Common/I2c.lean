import Mathlib.Data.List.Basic
import Mathlib.Data.Nat.Notation
import Mathlib.Order.Nat

/-!
# A two-wire bus

What an observer reads off the levels of SCL and SDA: START and STOP where SDA falls or rises while
SCL is high, and bytes from the bits sampled on rising SCL, each with its acknowledge bit. Beside it
stands a slave that follows the clock alone and changes SDA only when SCL falls
(`Slave.step_pull`); for each byte a list of answers says whether it acknowledges the byte, leaves
it unacknowledged, or sends a byte of its own.
-/

namespace Stm32Board.Common.I2c

/-! ## Bits of a byte -/

/-- Bit `i` of a byte on the wire, the most significant bit first. -/
def wireBit (x : UInt8) (i : ℕ) : Bool := x.toNat.testBit (7 - i)

/-- The bits on the wire from bit `i` on, `n` of them. -/
def wireBits (x : UInt8) : ℕ → ℕ → List Bool
  | _, 0 => []
  | i, n + 1 => wireBit x i :: wireBits x (i + 1) n

/-- One more bit into a shift register. -/
def shiftIn (shift : UInt8) (bit : Bool) : UInt8 := (shift <<< 1) + (if bit then 1 else 0)

/-- A property of bytes is checked byte by byte. -/
theorem forall_uint8 {P : UInt8 → Prop} (h : ∀ i : Fin 256, P (UInt8.ofFin i)) (x : UInt8) : P x :=
  h x.toFin

/-- A byte shifted out is shifted in again. -/
theorem foldl_shiftIn_wireBits (x : UInt8) : (wireBits x 0 8).foldl shiftIn 0 = x := by
  revert x
  exact forall_uint8 (by decide +kernel)

/-- As many bits as asked for. -/
theorem length_wireBits (x : UInt8) (i n : ℕ) : (wireBits x i n).length = n := by
  induction n generalizing i with
  | zero => rfl
  | succ n ih => rw [wireBits, List.length_cons, ih]

/-! ## The observer -/

/-- The lines at one moment, with the level the master leaves SDA at. -/
structure Level where
  scl : Bool
  master : Bool
  sda : Bool
deriving DecidableEq

/-- What can be read off the lines. -/
inductive Event where
  | start
  | stop
  | byte (data : UInt8) (ack : Bool)
deriving DecidableEq

/-- The change of SDA that an event consists of. -/
def Event.edge : Event → Option Bool
  | .start => some false
  | .stop => some true
  | .byte _ _ => none

/-- What has been read so far; `edges` are the levels the master moved SDA to under a high SCL. -/
structure Seen where
  active : Bool := false
  bits : ℕ := 0
  shift : UInt8 := 0
  events : List Event := []
  edges : List Bool := []

/-- A rising SCL samples a bit; the ninth is the acknowledge bit. -/
def Seen.rise (w : Seen) (sda : Bool) : Seen :=
  if w.active then
    if w.bits = 8 then
      { w with bits := 0, shift := 0, events := w.events ++ [.byte w.shift (!sda)] }
    else { w with bits := w.bits + 1, shift := shiftIn w.shift sda }
  else w

/-- A START or a STOP drops the bits of an unfinished byte. -/
def Seen.condition (w : Seen) (e : Event) : Seen :=
  { w with active := e = .start, bits := 0, shift := 0, events := w.events ++ [e] }

/-- The master moves SDA under a high SCL. -/
def Seen.masterEdge (w : Seen) (l l' : Level) : Seen :=
  if l.master = l'.master then w else { w with edges := w.edges ++ [l'.master] }

/-- The lines go from one level to another. -/
def Seen.step (w : Seen) (l l' : Level) : Seen :=
  match l.scl, l'.scl with
  | false, true => w.rise l'.sda
  | true, true =>
    match l.sda, l'.sda with
    | true, false => (w.masterEdge l l').condition .start
    | false, true => (w.masterEdge l l').condition .stop
    | _, _ => w.masterEdge l l'
  | _, false => w

/-- Both lines up. -/
def idleLevel : Level := ⟨true, true, true⟩

def observe (p : Level × Seen) (l : Level) : Level × Seen := (l, p.2.step p.1 l)

/-- Watch the lines from an idle bus on. -/
def watch (trace : List Level) : Level × Seen := trace.foldl observe (idleLevel, {})

/-- The events that the levels decode to. -/
def decode (trace : List Level) : List Event := (watch trace).2.events

/-- The levels the master moved SDA to while SCL was high. -/
def masterEdges (trace : List Level) : List Bool := (watch trace).2.edges

/-- A START or a STOP that the master makes. -/
def Seen.made (w : Seen) (e : Event) : Seen :=
  { w with active := e = .start, bits := 0, shift := 0, events := w.events ++ [e],
           edges := w.edges ++ e.edge.toList }

/-- The watcher takes one level after the other. -/
theorem watch_concat (trace : List Level) (l : Level) :
    watch (trace ++ [l]) = observe (watch trace) l := List.foldl_concat ..

@[simp] theorem Seen.step_self (w : Seen) (l : Level) : w.step l l = w := by
  obtain ⟨scl, master, sda⟩ := l
  cases scl <;> cases sda <;> simp [Seen.step, Seen.masterEdge]

/-- While the clock is low the data may change. -/
@[simp] theorem Seen.step_low (w : Seen) (l l' : Level) (h : l'.scl = false) : w.step l l' = w := by
  obtain ⟨scl, master, sda⟩ := l'
  obtain rfl : scl = false := h
  cases hscl : l.scl <;> simp [Seen.step, hscl]

/-! ## Runs of bits -/

/-- Rising edges, one for each bit. -/
def Seen.rises (w : Seen) (bits : List Bool) : Seen := bits.foldl Seen.rise w

/-- Outside a transaction nothing is read. -/
theorem Seen.rises_idle {w : Seen} (h : w.active = false) (bits : List Bool) : w.rises bits = w := by
  induction bits with
  | nil => rfl
  | cons bit bits ih =>
    have hrise : w.rise bit = w := by simp [Seen.rise, h]
    rw [Seen.rises, List.foldl_cons, hrise]
    exact ih

/-- Inside one, at most eight bits go into the shift register. -/
theorem Seen.rises_active {w : Seen} (h : w.active = true) {bits : List Bool}
    (hbits : w.bits + bits.length ≤ 8) :
    w.rises bits = { w with bits := w.bits + bits.length, shift := bits.foldl shiftIn w.shift } := by
  induction bits generalizing w with
  | nil => rfl
  | cons bit bits ih =>
    rw [List.length_cons] at hbits
    have hrise : w.rise bit = { w with bits := w.bits + 1, shift := shiftIn w.shift bit } := by
      rw [Seen.rise, if_pos h, if_neg (by omega)]
    rw [Seen.rises, List.foldl_cons, hrise]
    refine (ih (w := { w with bits := w.bits + 1, shift := shiftIn w.shift bit }) h
      (by simpa [Nat.add_assoc, Nat.add_comm 1] using hbits)).trans ?_
    rw [List.length_cons, List.foldl_cons, Nat.add_assoc, Nat.add_comm 1]

/-- A whole byte and its acknowledge bit, read inside a transaction only. -/
def Seen.read (w : Seen) (x : UInt8) (ack : Bool) : Seen :=
  if w.active then { w with bits := 0, shift := 0, events := w.events ++ [.byte x ack] } else w

/-- A byte that was read leaves no bit behind. -/
theorem Seen.read_bits {w : Seen} (h : w.bits = 0) (x : UInt8) (ack : Bool) :
    (w.read x ack).bits = 0 := by
  rw [read]
  split
  · rfl
  · exact h

/-- Nor anything in the shift register. -/
theorem Seen.read_shift {w : Seen} (h : w.shift = 0) (x : UInt8) (ack : Bool) :
    (w.read x ack).shift = 0 := by
  rw [read]
  split
  · rfl
  · exact h

/-- Nine clock pulses carry a byte and its acknowledge bit. -/
theorem Seen.rise_rises {w : Seen} (hbits : w.bits = 0) (hshift : w.shift = 0) (x : UInt8)
    (ack : Bool) : (w.rises (wireBits x 0 8)).rise (!ack) = w.read x ack := by
  cases hactive : w.active with
  | false => rw [rises_idle hactive, rise, read, hactive]; rfl
  | true =>
    have hlen : w.bits + (wireBits x 0 8).length = 8 := by rw [length_wireBits, hbits]
    rw [rises_active hactive hlen.le, hlen, hshift, foldl_shiftIn_wireBits, rise, read, if_pos hactive,
      if_pos hactive, if_pos rfl, Bool.not_not]

/-- A byte that the master follows up with a STOP if it is not acknowledged. -/
def Seen.slot (w : Seen) (x : UInt8) (ack : Bool) : Seen :=
  if ack then w.read x true else (w.read x false).made .stop

/-- The master has moved SDA under a high SCL in the START and STOP conditions only. -/
def Seen.Stable (w : Seen) : Prop := w.edges = w.events.filterMap Event.edge

/-- Recording a condition is no change of data under a high clock. -/
theorem Seen.Stable.made {w : Seen} (h : w.Stable) (e : Event) : (w.made e).Stable := by
  rw [Stable, Seen.made, h]
  cases e <;> simp [Event.edge]

/-- Nor is reading a byte. -/
theorem Seen.Stable.read {w : Seen} (h : w.Stable) (x : UInt8) (ack : Bool) :
    (w.read x ack).Stable := by
  rw [Stable, Seen.read]
  split
  · rw [List.filterMap_append, ← h]
    exact (List.append_nil _).symm
  · exact h

/-- Nor is an acknowledge bit. -/
theorem Seen.Stable.slot {w : Seen} (h : w.Stable) (x : UInt8) (ack : Bool) :
    (w.slot x ack).Stable := by
  rw [Seen.slot]
  split
  · exact h.read x true
  · exact (h.read x false).made .stop

/-- A bit sampled before a START or a STOP is dropped by it. -/
theorem Seen.made_rise {w : Seen} (h : w.bits ≠ 8) (sda : Bool) (e : Event) :
    (w.rise sda).made e = w.made e := by
  rw [rise, if_neg h]
  split
  · rfl
  · rfl

/-! ## The slave -/

/-- What the slave does with a byte: acknowledge it, so that the first `lag` polls still read a high
SDA; leave it unacknowledged; or send a byte in its place. -/
inductive Answer where
  | ack (lag : ℕ)
  | nack
  | send (data : UInt8)
deriving DecidableEq

/-- Whether SDA is held low after the given number of clock pulses of the byte. -/
def Answer.pulls : Answer → ℕ → Bool
  | .ack _, bits => bits = 8
  | .nack, _ => false
  | .send data, bits => decide (bits < 8) && !wireBit data bits

def Answer.lagAt : Answer → ℕ → ℕ
  | .ack lag, bits => if bits = 8 then lag else 0
  | _, _ => 0

/-- The byte is acknowledged. -/
def Answer.acks : Answer → Bool
  | .ack _ => true
  | _ => false

/-- The answers to the coming bytes, the clock pulses of the current one, and SDA as the slave holds
it. -/
structure Slave where
  answers : List Answer
  bits : ℕ := 0
  pull : Bool := false
  lag : ℕ := 0

/-- The slave after the given number of clock pulses of a byte, with SCL low. -/
def Slave.at (answers : List Answer) (bits : ℕ) : Slave where
  answers := answers
  bits := bits
  pull := answers.head?.any (·.pulls bits)
  lag := (answers.head?.map (·.lagAt bits)).getD 0

/-- SCL falls: after the ninth pulse the next byte begins. -/
def Slave.fall (s : Slave) : Slave :=
  if s.bits = 9 then Slave.at s.answers.tail 0 else Slave.at s.answers s.bits

/-- SCL rises: one more clock pulse. -/
def Slave.clock (s : Slave) : Slave := { s with bits := s.bits + 1 }

/-- The slave follows the lines: it counts clock pulses, from anew after a START or a STOP. -/
def Slave.step (s : Slave) (l l' : Level) : Slave :=
  match l.scl, l'.scl with
  | true, false => s.fall
  | false, true => s.clock
  | true, true => if l.sda = l'.sda then s else { s with bits := 0 }
  | false, false => s

/-- The slave changes SDA only when SCL falls. -/
theorem Slave.step_pull {s : Slave} {l l' : Level} (h : (s.step l l').pull ≠ s.pull) :
    l.scl = true ∧ l'.scl = false := by
  cases hl : l.scl <;> cases hl' : l'.scl <;> simp only [Slave.step, hl, hl'] at h
  · exact absurd rfl h
  · exact absurd rfl h
  · exact ⟨rfl, rfl⟩
  · split at h <;> exact absurd rfl h

/-- The slave only moves on behind the ninth bit. -/
@[simp] theorem Slave.fall_at {answers : List Answer} {bits : ℕ} (h : bits ≠ 9) :
    (Slave.at answers bits).fall = Slave.at answers bits := if_neg h

/-- A clock pulse is one bit. -/
theorem Slave.fall_clock_at (answers : List Answer) {bits : ℕ} (h : bits ≠ 8) :
    (Slave.at answers bits).clock.fall = Slave.at answers (bits + 1) :=
  if_neg (show bits + 1 ≠ 9 by omega)

/-- The ninth pulse ends a byte. -/
theorem Slave.fall_clock_at_eight (answers : List Answer) :
    (Slave.at answers 8).clock.fall = Slave.at answers.tail 0 := if_pos rfl

/-- A slave that sends pulls the line down for its zeros. -/
theorem Slave.at_send_pull (data : UInt8) (answers : List Answer) {bits : ℕ} (h : bits < 8) :
    (Slave.at (.send data :: answers) bits).pull = !wireBit data bits := by
  simp [Slave.at, Answer.pulls, h]

/-- The master has SDA for the acknowledge bit of a byte that the slave sent. -/
theorem Slave.at_send_eight_pull (data : UInt8) (answers : List Answer) :
    (Slave.at (.send data :: answers) 8).pull = false := by
  simp [Slave.at, Answer.pulls]

/-- The slave leaves SDA alone through the bits of the next byte. -/
def Listens (answers : List Answer) : Prop := ∀ bits < 8, (Slave.at answers bits).pull = false

/-- A slave without answers listens. -/
theorem listens_nil : Listens [] := fun _ _ => rfl

/-- So does one that acknowledges. -/
theorem listens_ack (lag : ℕ) (answers : List Answer) : Listens (.ack lag :: answers) := by
  intro bits hbits
  simp only [Slave.at, List.head?_cons, Option.any_some, Answer.pulls, decide_eq_false_iff_not]
  omega

/-- So does one that does not. -/
theorem listens_nack (answers : List Answer) : Listens (.nack :: answers) := fun _ _ => rfl

end Stm32Board.Common.I2c
