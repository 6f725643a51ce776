import Stm32Board.Common.I2c

/-!
# The bit-banged EEPROM bus

The routines of `myiic.c` and the two byte operations of `24cxx.c`, as the port writes they make.
PB6 is SCL; PB7 is SDA, driven while it is an output and pulled up while it is an input. The other
end of the bus is a slave that answers byte by byte.

Reference: `applications/TOUCH/myiic.c`, `applications/TOUCH/24cxx.c`.
-/

namespace Stm32Board.Iic

open Common.I2c

/-! ## The port -/

/-- Bits 6 and 7 of the output register, and whether PB7 is an output. -/
structure Pins where
  scl : Bool
  sda : Bool
  out : Bool

/-- The lines: SDA is low if the port or the slave holds it low. -/
def Pins.level (p : Pins) (s : Slave) : Level where
  scl := p.scl
  master := !p.out || p.sda
  sda := (!p.out || p.sda) && !s.pull

/-- The port, the slave, and the levels of the lines so far. -/
structure Bus where
  pins : Pins
  slave : Slave
  trace : List Level

/-- A port write, and what the slave makes of it. -/
def Bus.write (b : Bus) (p : Pins) : Bus :=
  let slave := b.slave.step (b.pins.level b.slave) (p.level b.slave)
  { pins := p, slave := slave, trace := b.trace ++ [p.level b.slave, p.level slave] }

/-- `IIC_SCL` -/
def Bus.iicScl (b : Bus) (v : Bool) : Bus := b.write { b.pins with scl := v }

/-- `IIC_SDA` -/
def Bus.iicSda (b : Bus) (v : Bool) : Bus := b.write { b.pins with sda := v }

/-- `SDA_IN` -/
def Bus.sdaIn (b : Bus) : Bus := b.write { b.pins with out := false }

/-- `SDA_OUT` -/
def Bus.sdaOut (b : Bus) : Bus := b.write { b.pins with out := true }

/-- `READ_SDA`; a poll for an acknowledge bit may lag behind the line. -/
def Bus.readSda (b : Bus) : Bool × Bus :=
  if b.slave.lag > 0 then (true, { b with slave := { b.slave with lag := b.slave.lag - 1 } })
  else ((b.pins.level b.slave).sda, b)

/-- `IIC_Init` has left both lines up; the slave has its answers ready. -/
def iicInit (answers : List Answer) : Bus where
  pins := ⟨true, true, true⟩
  slave := { answers := answers }
  trace := []

/-! ## `myiic.c` -/

/-- `IIC_Start` -/
def iicStart (b : Bus) : Bus :=
  ((((b.sdaOut.iicSda true).iicScl true).iicSda false).iicScl false)

/-- `IIC_Stop` -/
def iicStop (b : Bus) : Bus :=
  ((((b.sdaOut.iicScl false).iicSda false).iicScl true).iicSda true)

/-- The limit of the wait for an acknowledge. -/
theorem gt_250_iff (t : UInt8) : t > 250 ↔ 250 < t.toNat := UInt8.lt_iff_toNat_lt

/-- The counter of that wait does not wrap. -/
theorem toNat_add_one_of_lt {t : UInt8} (h : t.toNat < 255) : (t + 1).toNat = t.toNat + 1 := by
  rw [UInt8.toNat_add, UInt8.toNat_one, Nat.mod_eq_of_lt (by omega)]

/-- The polling loop of `IIC_Wait_Ack`, with `ucErrTime`. -/
def iicWaitLoop (ucErrTime : UInt8) (b : Bus) : Bus × UInt8 :=
  let r := b.readSda
  if r.1 then
    if ucErrTime + 1 > 250 then (iicStop r.2, 1) else iicWaitLoop (ucErrTime + 1) r.2
  else (r.2.iicScl false, 0)
termination_by 255 - (ucErrTime + 1).toNat
decreasing_by
  rename_i h
  rw [gt_250_iff] at h
  have hsucc := toNat_add_one_of_lt (t := ucErrTime + 1) (by omega)
  omega

/-- `IIC_Wait_Ack`: 0 for an acknowledged byte, 1 after a STOP. -/
def iicWaitAck (b : Bus) : Bus × UInt8 :=
  iicWaitLoop 0 ((b.sdaIn.iicSda true).iicScl true)

/-- `IIC_Ack` -/
def iicAck (b : Bus) : Bus :=
  ((((b.iicScl false).sdaOut).iicSda false).iicScl true).iicScl false

/-- `IIC_NAck` -/
def iicNAck (b : Bus) : Bus :=
  ((((b.iicScl false).sdaOut).iicSda true).iicScl true).iicScl false

/-- The loop of `IIC_Send_Byte`, for the bits that remain. -/
def iicSendLoop : ℕ → UInt8 → Bus → Bus
  | 0, _, b => b
  | t + 1, txd, b =>
    iicSendLoop t (txd <<< 1)
      (((b.iicSda ((txd &&& 0x80) >>> 7 ≠ 0)).iicScl true).iicScl false)

/-- `IIC_Send_Byte` -/
def iicSendByte (txd : UInt8) (b : Bus) : Bus := iicSendLoop 8 txd (b.sdaOut.iicScl false)

/-- The loop of `IIC_Read_Byte`, for the bits that remain. -/
def iicReadLoop : ℕ → UInt8 → Bus → Bus × UInt8
  | 0, receive, b => (b, receive)
  | i + 1, receive, b =>
    let r := ((b.iicScl false).iicScl true).readSda
    iicReadLoop i (if r.1 then (receive <<< 1) + 1 else receive <<< 1) r.2

/-- `IIC_Read_Byte` -/
def iicReadByte (ack : UInt8) (b : Bus) : Bus × UInt8 :=
  let r := iicReadLoop 8 0 b.sdaIn
  (if ack = 0 then iicNAck r.1 else iicAck r.1, r.2)

/-! ## `24cxx.c` -/

/-- `AT24C16` -/
def at24c16 : ℕ := 2047

/-- `EE_TYPE`, an AT24C02. -/
def eeType : ℕ := 255

/-- The device address of a write, and the word address that follows it on the larger devices. -/
def sendDevice (addr : UInt16) (b : Bus) : Bus :=
  if eeType > at24c16 then iicSendByte (addr >>> 8).toUInt8 (iicWaitAck (iicSendByte 0xA0 b)).1
  else iicSendByte ((0xA0 : UInt16) + ((addr / 256) <<< 1)).toUInt8 b

/-- `AT24CXX_ReadOneByte` -/
def at24cxxReadOneByte (readAddr : UInt16) (b : Bus) : Bus × UInt8 :=
  let b := (iicWaitAck (sendDevice readAddr (iicStart b))).1
  let b := (iicWaitAck (iicSendByte (readAddr % 256).toUInt8 b)).1
  let b := (iicWaitAck (iicSendByte 0xA1 (iicStart b))).1
  let r := iicReadByte 0 b
  (iicStop r.1, r.2)

/-- `AT24CXX_WriteOneByte` -/
def at24cxxWriteOneByte (writeAddr : UInt16) (dataToWrite : UInt8) (b : Bus) : Bus :=
  let b := (iicWaitAck (sendDevice writeAddr (iicStart b))).1
  let b := (iicWaitAck (iicSendByte (writeAddr % 256).toUInt8 b)).1
  let b := (iicWaitAck (iicSendByte dataToWrite b)).1
  iicStop b

/-! ## One port write -/

/-- The port, the slave and what the levels so far show. -/
structure Bus.Is (b : Bus) (p : Pins) (s : Slave) (w : Seen) : Prop where
  pins : b.pins = p
  slave : b.slave = s
  seen : watch b.trace = (p.level s, w)

/-- After `IIC_Init` both lines are high and nothing has been seen. -/
theorem iicInit_is (answers : List Answer) :
    (iicInit answers).Is ⟨true, true, true⟩ { answers := answers } {} :=
  ⟨rfl, rfl, rfl⟩

/-- An observer sees the write; the slave's answer to it falls under a low SCL. -/
theorem Bus.Is.write {b : Bus} {p : Pins} {s : Slave} {w : Seen} (h : b.Is p s w) (p' : Pins) :
    (b.write p').Is p' (s.step (p.level s) (p'.level s)) (w.step (p.level s) (p'.level s)) := by
  obtain ⟨hpins, hslave, hseen⟩ := h
  refine ⟨rfl, by rw [← hpins, ← hslave]; rfl, ?_⟩
  have hanswer : ∀ s', s' = s.step (p.level s) (p'.level s) → ∀ w' : Seen,
      w'.step (p'.level s) (p'.level s') = w' := by
    intro s' hs' w'
    by_cases hpull : s'.pull = s.pull
    · have hlevel : p'.level s' = p'.level s := by rw [Pins.level, Pins.level, hpull]
      rw [hlevel, Seen.step_self]
    · rw [hs'] at hpull
      exact Seen.step_low _ _ _ (Slave.step_pull hpull).2
  rw [Bus.write, hpins, hslave]
  change watch (b.trace ++ ([p'.level s] ++ [_])) = _
  rw [← List.append_assoc, watch_concat, watch_concat, hseen]
  exact Prod.ext rfl (hanswer _ rfl _)

/-- Setting the clock line is one step of the slave and of the watcher. -/
theorem Bus.Is.iicScl {b : Bus} {p : Pins} {s : Slave} {w : Seen} (h : b.Is p s w) (v : Bool) :
    (b.iicScl v).Is { p with scl := v } (s.step (p.level s) (Pins.level { p with scl := v } s))
      (w.step (p.level s) (Pins.level { p with scl := v } s)) := by
  rw [Bus.iicScl, h.pins]
  exact h.write _

/-- So is setting the data line. -/
theorem Bus.Is.iicSda {b : Bus} {p : Pins} {s : Slave} {w : Seen} (h : b.Is p s w) (v : Bool) :
    (b.iicSda v).Is { p with sda := v } (s.step (p.level s) (Pins.level { p with sda := v } s))
      (w.step (p.level s) (Pins.level { p with sda := v } s)) := by
  rw [Bus.iicSda, h.pins]
  exact h.write _

/-- So is releasing it. -/
theorem Bus.Is.sdaIn {b : Bus} {p : Pins} {s : Slave} {w : Seen} (h : b.Is p s w) :
    b.sdaIn.Is { p with out := false } (s.step (p.level s) (Pins.level { p with out := false } s))
      (w.step (p.level s) (Pins.level { p with out := false } s)) := by
  rw [Bus.sdaIn, h.pins]
  exact h.write _

/-- So is taking it back. -/
theorem Bus.Is.sdaOut {b : Bus} {p : Pins} {s : Slave} {w : Seen} (h : b.Is p s w) :
    b.sdaOut.Is { p with out := true } (s.step (p.level s) (Pins.level { p with out := true } s))
      (w.step (p.level s) (Pins.level { p with out := true } s)) := by
  rw [Bus.sdaOut, h.pins]
  exact h.write _

end Stm32Board.Iic
