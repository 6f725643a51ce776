import Stm32Board.Iic.Wire

/-!
# The two EEPROM operations on the wire

With a slave that acknowledges, `AT24CXX_WriteOneByte` and `AT24CXX_ReadOneByte` decode to the
transactions of the data sheet; whatever the slave leaves unacknowledged, the routines go on, and
the rest of a write decodes to nothing but STOPs (`at24cxx_wire`).
-/

namespace Stm32Board.Iic

open Common.I2c

/-! ## A write, whatever the answers -/

/-- What an observer sees of a write. -/
def writeSeen (w : Seen) (addr data : UInt8) (a₀ a₁ a₂ : Answer) : Seen :=
  ((((w.made .start).slot 0xA0 a₀.acks).slot addr a₁.acks).slot data a₂.acks).made .stop

/-- For the small EEPROM the device address is `0xA0`. -/
theorem sendDevice_eq {addr : UInt16} (h : addr < 256) (b : Bus) :
    sendDevice addr b = iicSendByte 0xA0 b := by
  have hdiv : addr / 256 = 0 := by
    rw [← UInt16.toNat_inj, UInt16.toNat_div]
    exact Nat.div_eq_of_lt (UInt16.lt_iff_toNat_lt.mp h)
  rw [sendDevice, if_neg (by decide), hdiv]
  rfl

/-- An address of the small EEPROM is a byte. -/
theorem mod_toUInt8 {addr : UInt16} (h : addr < 256) : (addr % 256).toUInt8 = addr.toUInt8 := by
  have hmod : addr % 256 = addr := by
    rw [← UInt16.toNat_inj, UInt16.toNat_mod]
    exact Nat.mod_eq_of_lt (UInt16.lt_iff_toNat_lt.mp h)
  rw [hmod]

/-- A start condition between two transfers. -/
theorem between_started {b : Bus} {answers : List Answer} {w : Seen} (h : b.Between answers w)
    (hquiet : Listens answers) : (iicStart b).Between answers (w.made .start) :=
  ⟨⟨_, .inl rfl, iicStart_spec h hquiet⟩, rfl, rfl⟩

/-- A write leaves the bus idle, with known events. -/
theorem at24cxxWriteOneByte_spec {b : Bus} {w : Seen} {a₀ a₁ a₂ : Answer} {addr : UInt16}
    (h : b.Between [a₀, a₁, a₂] w) (h₀ : Timely a₀) (h₁ : Timely a₁) (h₂ : Timely a₂)
    (haddr : addr < 256) (data : UInt8) :
    (at24cxxWriteOneByte addr data b).Is ⟨true, true, true⟩ (Slave.at [] 0)
      (writeSeen w addr.toUInt8 data a₀ a₁ a₂) := by
  have hstart := between_started h (h₀.listens _)
  have hdevice := byte_spec hstart h₀ (h₁.listens _) 0xA0
  have hword := byte_spec hdevice h₁ (h₂.listens _) addr.toUInt8
  have hdata := byte_spec hword h₂ listens_nil data
  rw [at24cxxWriteOneByte, sendDevice_eq haddr, mod_toUInt8 haddr]
  exact iicStop_spec hdata listens_nil

/-! ## A read that is acknowledged -/

/-- What an observer sees of a read. -/
def readSeen (w : Seen) (addr data : UInt8) : Seen :=
  ((((((w.made .start).read 0xA0 true).read addr true).made .start).read 0xA1 true).read data
    false).made .stop

/-- A read returns the byte that the slave sends. -/
theorem at24cxxReadOneByte_spec {b : Bus} {w : Seen} {l₀ l₁ l₂ : ℕ} {addr : UInt16} {data : UInt8}
    (h : b.Between [.ack l₀, .ack l₁, .ack l₂, .send data] w) (h₀ : l₀ ≤ 250) (h₁ : l₁ ≤ 250)
    (h₂ : l₂ ≤ 250) (haddr : addr < 256) :
    (at24cxxReadOneByte addr b).1.Is ⟨true, true, true⟩ (Slave.at [] 0)
        (readSeen w addr.toUInt8 data) ∧
      (at24cxxReadOneByte addr b).2 = data := by
  have hstart := between_started h (listens_ack l₀ _)
  have hdevice := byte_spec hstart (a := .ack l₀) h₀ (listens_ack l₁ _) 0xA0
  have hword := byte_spec hdevice (a := .ack l₁) h₁ (listens_ack l₂ _) addr.toUInt8
  have hagain := between_started hword (listens_ack l₂ _)
  have hthird := byte_ack hagain h₂ 0xA1
  have hbits := Seen.read_bits hagain.bits 0xA1 true
  have hshift := Seen.read_shift hagain.shift 0xA1 true
  obtain ⟨hread, hdata⟩ := iicReadByte_spec hthird hbits hshift
  simp only [at24cxxReadOneByte, sendDevice_eq haddr, mod_toUInt8 haddr]
  refine ⟨iicStop_spec ⟨⟨_, .inl rfl, hread⟩, ?_, ?_⟩ listens_nil, hdata⟩
  · exact Seen.read_bits hbits data false
  · exact Seen.read_shift hshift data false

/-! ## From an idle bus -/

/-- What is asked of the levels of a write: the master moves SDA under a high SCL only to make a
START or a STOP, the one START comes first, the bus ends idle, and a third byte followed by a STOP
is the data byte, after two acknowledged ones. -/
structure WriteSound (data : UInt8) (a₀ a₁ : Answer) (b : Bus) : Prop where
  stable : masterEdges b.trace = (decode b.trace).filterMap Event.edge
  oneStart : ∃ rest, decode b.trace = .start :: rest ∧ .start ∉ rest
  idle : b.pins.level b.slave = idleLevel
  addressed : ∀ before after x y z p q r,
    decode b.trace = before ++ .start :: .byte x p :: .byte y q :: .byte z r :: .stop :: after →
      z = data ∧ a₀.acks = true ∧ a₁.acks = true

/-- After `IIC_Init` a transfer may begin. -/
theorem iicInit_between {a : Answer} {answers : List Answer} (ha : Timely a) :
    (iicInit (a :: answers)).Between (a :: answers) {} := by
  refine ⟨⟨_, .inr rfl, ?_⟩, rfl, rfl⟩
  cases a with
  | ack lag => exact iicInit_is _
  | nack => exact iicInit_is _
  | send data => exact absurd ha id

/-- The only START of a list that begins with it. -/
theorem eq_nil_of_oneStart {l rest before tail : List Event} (hl : l = .start :: rest)
    (hone : .start ∉ rest) (h : l = before ++ .start :: tail) : before = [] := by
  cases before with
  | nil => rfl
  | cons e before =>
    rw [hl, List.cons_append, List.cons.injEq] at h
    exact absurd (h.2 ▸ List.mem_append_right _ List.mem_cons_self) hone

/-- The START of a write is its only one. -/
theorem writeSeen_oneStart (addr data : UInt8) (a₀ a₁ a₂ : Answer) :
    ∃ rest, (writeSeen {} addr data a₀ a₁ a₂).events = .start :: rest ∧ .start ∉ rest := by
  cases h₀ : a₀.acks <;> cases h₁ : a₁.acks <;> cases h₂ : a₂.acks <;>
    simp [writeSeen, Seen.slot, Seen.read, Seen.made, h₀, h₁, h₂]

/-- A transaction of three bytes is the whole write, with its first two bytes acknowledged. -/
theorem writeSeen_addressed (addr data : UInt8) (a₀ a₁ a₂ : Answer) {after : List Event}
    {x y z : UInt8} {p q r : Bool} (h : (writeSeen {} addr data a₀ a₁ a₂).events =
      .start :: .byte x p :: .byte y q :: .byte z r :: .stop :: after) :
    z = data ∧ a₀.acks = true ∧ a₁.acks = true := by
  cases h₀ : a₀.acks <;> cases h₁ : a₁.acks <;> cases h₂ : a₂.acks <;>
    simp_all [writeSeen, Seen.slot, Seen.read, Seen.made]

/-- What the watcher must have seen of a write. -/
theorem writeSound_of_is {data addr : UInt8} {a₀ a₁ a₂ : Answer} {b : Bus}
    (h : b.Is ⟨true, true, true⟩ (Slave.at [] 0) (writeSeen {} addr data a₀ a₁ a₂)) :
    WriteSound data a₀ a₁ b := by
  have hevents : decode b.trace = (writeSeen {} addr data a₀ a₁ a₂).events := by
    rw [decode, h.seen]
  have hstable : (writeSeen {} addr data a₀ a₁ a₂).Stable := by
    have hnil : (Seen.Stable {}) := rfl
    exact ((((hnil.made .start).slot 0xA0 _).slot addr _).slot data _).made .stop
  obtain ⟨rest, hrest, hone⟩ := writeSeen_oneStart addr data a₀ a₁ a₂
  refine ⟨?_, ⟨rest, hevents.trans hrest, hone⟩, by rw [h.pins, h.slave]; rfl, ?_⟩
  · rw [masterEdges, h.seen, hevents]
    exact hstable
  · intro before after x y z p q r hdecode
    obtain rfl := eq_nil_of_oneStart (hevents.trans hrest) hone hdecode
    exact writeSeen_addressed addr data a₀ a₁ a₂ (hevents.symm.trans hdecode)

/-- On the wire, for every word address and every byte: a write and a read that are acknowledged
within the tries are the transactions of the data sheet, a read returns the byte sent, and a write
with any answers makes one START, moves SDA under a high SCL in its conditions only, ends idle, and
is complete only if its first two bytes are acknowledged. -/
theorem at24cxx_wire {addr : UInt16} (haddr : addr < 256) (data : UInt8) :
    (∀ l₀ l₁ l₂, l₀ ≤ 250 → l₁ ≤ 250 → l₂ ≤ 250 →
      decode (at24cxxWriteOneByte addr data (iicInit [.ack l₀, .ack l₁, .ack l₂])).trace =
        [.start, .byte 0xA0 true, .byte addr.toUInt8 true, .byte data true, .stop]) ∧
    (∀ l₀ l₁ l₂, l₀ ≤ 250 → l₁ ≤ 250 → l₂ ≤ 250 →
      decode (at24cxxReadOneByte addr (iicInit [.ack l₀, .ack l₁, .ack l₂, .send data])).1.trace =
        [.start, .byte 0xA0 true, .byte addr.toUInt8 true, .start, .byte 0xA1 true,
          .byte data false, .stop] ∧
      (at24cxxReadOneByte addr (iicInit [.ack l₀, .ack l₁, .ack l₂, .send data])).2 = data) ∧
    (∀ a₀ a₁ a₂, Timely a₀ → Timely a₁ → Timely a₂ →
      WriteSound data a₀ a₁ (at24cxxWriteOneByte addr data (iicInit [a₀, a₁, a₂]))) := by
  refine ⟨fun l₀ l₁ l₂ h₀ h₁ h₂ => ?_, fun l₀ l₁ l₂ h₀ h₁ h₂ => ?_, fun a₀ a₁ a₂ h₀ h₁ h₂ => ?_⟩
  · have hinit : (iicInit [.ack l₀, .ack l₁, .ack l₂]).Between _ {} := iicInit_between h₀
    rw [decode, (at24cxxWriteOneByte_spec hinit h₀ h₁ h₂ haddr data).seen]
    rfl
  · have hinit : (iicInit [.ack l₀, .ack l₁, .ack l₂, .send data]).Between _ {} :=
      iicInit_between h₀
    obtain ⟨hbus, hdata⟩ := at24cxxReadOneByte_spec hinit h₀ h₁ h₂ haddr
    rw [decode, hbus.seen]
    exact ⟨rfl, hdata⟩
  · exact writeSound_of_is (at24cxxWriteOneByte_spec (iicInit_between h₀) h₀ h₁ h₂ haddr data)

/-- Byte 7 of the device. -/
theorem at24cxx_wire_seven :
    decode (at24cxxWriteOneByte 7 0x5A (iicInit [.ack 0, .ack 3, .ack 250])).trace =
        [.start, .byte 0xA0 true, .byte 7 true, .byte 0x5A true, .stop] ∧
      WriteSound 0x5A .nack (.ack 1)
        (at24cxxWriteOneByte 7 0x5A (iicInit [.nack, .ack 1, .nack])) :=
  ⟨(at24cxx_wire (show (7 : UInt16) < 256 by decide) 0x5A).1 0 3 250 (by decide) (by decide)
    (by decide), (at24cxx_wire (show (7 : UInt16) < 256 by decide) 0x5A).2.2 .nack (.ack 1) .nack
    trivial (show 1 ≤ 250 by decide) trivial⟩

end Stm32Board.Iic
