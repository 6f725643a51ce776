import Stm32Board.Iic.Defs

/-!
# What the bus routines put on the wire

Each routine takes a bus in a known state to a known state, and adds known events to what an
observer has seen.
-/

namespace Stm32Board.Iic

open Common.I2c

/-! ## Writes under a low and a high clock -/

section Writes

variable {b : Bus} {d o : Bool} {s : Slave} {w : Seen}

/-- With SCL low, SDA may move. -/
theorem Bus.Is.iicSda_low (h : b.Is ⟨false, d, o⟩ s w) (v : Bool) :
    (b.iicSda v).Is ⟨false, v, o⟩ s w := by
  have := h.iicSda v
  rwa [Seen.step_low _ _ _ rfl] at this

/-- While the clock is low the data line may be released. -/
theorem Bus.Is.sdaIn_low (h : b.Is ⟨false, d, o⟩ s w) : b.sdaIn.Is ⟨false, d, false⟩ s w := by
  have := h.sdaIn
  rwa [Seen.step_low _ _ _ rfl] at this

theorem Bus.Is.sdaOut_low (h : b.Is ⟨false, d, o⟩ s w) : b.sdaOut.Is ⟨false, d, true⟩ s w := by
  have := h.sdaOut
  rwa [Seen.step_low _ _ _ rfl] at this

/-- The clock may be set low again. -/
theorem Bus.Is.iicScl_low (h : b.Is ⟨false, d, o⟩ s w) : (b.iicScl false).Is ⟨false, d, o⟩ s w := by
  have := h.iicScl false
  rwa [Seen.step_low _ _ _ rfl] at this

/-- SCL rises: a bit is sampled. -/
theorem Bus.Is.rise (h : b.Is ⟨false, d, o⟩ s w) :
    (b.iicScl true).Is ⟨true, d, o⟩ s.clock (w.rise ((!o || d) && !s.pull)) :=
  h.iicScl true

/-- SCL falls: the slave moves on. -/
theorem Bus.Is.fall (h : b.Is ⟨true, d, o⟩ s w) : (b.iicScl false).Is ⟨false, d, o⟩ s.fall w := by
  have := h.iicScl false
  rwa [Seen.step_low _ _ _ rfl] at this

/-- A write that moves neither line. -/
theorem Bus.Is.of_level_eq {b' : Bus} {p p' : Pins} (hl : p'.level s = p.level s)
    (h : b'.Is p' (s.step (p.level s) (p'.level s)) (w.step (p.level s) (p'.level s))) :
    b'.Is p' s w := by
  have hslave : s.step (p.level s) (p.level s) = s := by
    cases hscl : (p.level s).scl <;> simp [Slave.step, hscl]
  rwa [hl, hslave, Seen.step_self] at h

/-- SDA falls under a high SCL. -/
theorem Bus.Is.startEdge (h : b.Is ⟨true, true, true⟩ s w) (hpull : s.pull = false) :
    (b.iicSda false).Is ⟨true, false, true⟩ { s with bits := 0 } (w.made .start) := by
  have := h.iicSda false
  simpa [Slave.step, Seen.step, Pins.level, Seen.masterEdge, Seen.condition, Seen.made, Event.edge,
    hpull] using this

/-- SDA rises under a high SCL. -/
theorem Bus.Is.stopEdge (h : b.Is ⟨true, false, true⟩ s w) (hpull : s.pull = false) :
    (b.iicSda true).Is ⟨true, true, true⟩ { s with bits := 0 } (w.made .stop) := by
  have := h.iicSda true
  simpa [Slave.step, Seen.step, Pins.level, Seen.masterEdge, Seen.condition, Seen.made, Event.edge,
    hpull] using this

end Writes

/-! ## Between bytes -/

/-- SCL is low, or the bus is idle. -/
def Pins.Rest (p : Pins) : Prop := p.scl = false ∨ p = ⟨true, true, true⟩

/-- Between two bytes: the slave is at the start of the next one, and so is the observer. -/
structure Bus.Between (b : Bus) (answers : List Answer) (w : Seen) : Prop where
  is : ∃ p : Pins, p.Rest ∧ b.Is p (Slave.at answers 0) w
  bits : w.bits = 0
  shift : w.shift = 0

/-- The first two writes of `IIC_Send_Byte` and `IIC_Stop`. -/
theorem Bus.Is.hold {b : Bus} {p : Pins} {answers : List Answer} {w : Seen}
    (h : b.Is p (Slave.at answers 0) w) (hp : p.Rest) :
    ∃ d, (b.sdaOut.iicScl false).Is ⟨false, d, true⟩ (Slave.at answers 0) w := by
  obtain ⟨scl, d, o⟩ := p
  rcases hp with rfl | hp
  · exact ⟨d, h.sdaOut_low.iicScl_low⟩
  · obtain ⟨rfl, rfl, rfl⟩ := Pins.mk.inj hp
    have hfall := (Bus.Is.of_level_eq rfl h.sdaOut).fall
    rw [Slave.fall_at (by decide)] at hfall
    exact ⟨true, hfall⟩

/-! ## START and STOP -/

/-- `IIC_Start` makes a START, from an idle bus or after an acknowledged byte. -/
theorem iicStart_spec {b : Bus} {answers : List Answer} {w : Seen} (h : b.Between answers w)
    (hquiet : Listens answers) :
    (iicStart b).Is ⟨false, false, true⟩ (Slave.at answers 0) (w.made .start) := by
  obtain ⟨⟨p, hp, his⟩, hbits, -⟩ := h
  have hpull : (Slave.at answers 0).pull = false := hquiet 0 (by decide)
  -- SCL is low behind an acknowledged byte; on an idle bus both lines are high already
  obtain ⟨scl, d, o⟩ := p
  rcases hp with rfl | hp
  · have hmade := (((his.sdaOut_low.iicSda_low true).rise).startEdge hpull).fall
    rw [Seen.made_rise (by simp [hbits])] at hmade
    exact hmade
  · obtain ⟨rfl, rfl, rfl⟩ := Pins.mk.inj hp
    have hsda := Bus.Is.of_level_eq rfl ((Bus.Is.of_level_eq rfl his.sdaOut).iicSda true)
    exact ((Bus.Is.of_level_eq rfl (hsda.iicScl true)).startEdge hpull).fall

/-- The last three writes of `IIC_Stop` make a STOP. -/
theorem iicStop_tail {b : Bus} {d : Bool} {answers : List Answer} {w : Seen}
    (h : b.Is ⟨false, d, true⟩ (Slave.at answers 0) w) (hbits : w.bits ≠ 8)
    (hquiet : Listens answers) :
    (((b.iicSda false).iicScl true).iicSda true).Is ⟨true, true, true⟩ (Slave.at answers 0)
      (w.made .stop) := by
  have hmade := ((h.iicSda_low false).rise).stopEdge (hquiet 0 (by decide))
  rw [Seen.made_rise hbits] at hmade
  exact hmade

/-- `IIC_Stop` is a stop condition, and leaves both lines high. -/
theorem iicStop_spec {b : Bus} {answers : List Answer} {w : Seen} (h : b.Between answers w)
    (hquiet : Listens answers) :
    (iicStop b).Is ⟨true, true, true⟩ (Slave.at answers 0) (w.made .stop) := by
  obtain ⟨⟨p, hp, his⟩, hbits, -⟩ := h
  obtain ⟨d, hhold⟩ := his.hold hp
  exact iicStop_tail hhold (by simp [hbits]) hquiet

/-! ## Sending a byte -/

/-- The bits that the loop of `IIC_Send_Byte` writes. -/
def sentBits : ℕ → UInt8 → List Bool
  | 0, _ => []
  | t + 1, txd => ((txd &&& 0x80) >>> 7 ≠ 0) :: sentBits t (txd <<< 1)

/-- A byte is sent from its highest bit on. -/
theorem sentBits_eq (txd : UInt8) : sentBits 8 txd = wireBits txd 0 8 := by
  revert txd
  exact forall_uint8 (by decide +kernel)

/-- Each round of the loop clocks out one bit. -/
theorem iicSendLoop_spec {answers : List Answer} (hquiet : Listens answers) (t : ℕ) {c : ℕ}
    (hc : c + t = 8) {b : Bus} {d : Bool} {w : Seen} (txd : UInt8)
    (h : b.Is ⟨false, d, true⟩ (Slave.at answers c) w) :
    ∃ d', (iicSendLoop t txd b).Is ⟨false, d', true⟩ (Slave.at answers 8)
      (w.rises (sentBits t txd)) := by
  induction t generalizing c b d w txd with
  | zero =>
    obtain rfl : c = 8 := hc
    exact ⟨d, h⟩
  | succ t ih =>
    have hpull : (Slave.at answers c).pull = false := hquiet c (by omega)
    have hround := ((h.iicSda_low ((txd &&& 0x80) >>> 7 ≠ 0)).rise).fall
    rw [Slave.fall_clock_at answers (by omega), hpull, Bool.not_false, Bool.and_true] at hround
    exact ih (by omega) (txd <<< 1) hround

/-- `IIC_Send_Byte` puts the eight bits on the wire. -/
theorem iicSendByte_spec {b : Bus} {answers : List Answer} {w : Seen} (h : b.Between answers w)
    (hquiet : Listens answers) (txd : UInt8) :
    ∃ d, (iicSendByte txd b).Is ⟨false, d, true⟩ (Slave.at answers 8)
      (w.rises (wireBits txd 0 8)) := by
  obtain ⟨⟨p, hp, his⟩, -, -⟩ := h
  obtain ⟨d, hhold⟩ := his.hold hp
  rw [← sentBits_eq]
  exact iicSendLoop_spec hquiet 8 rfl txd hhold

/-! ## Waiting for the acknowledge bit -/

/-- A poll that lags behind the line. -/
theorem readSda_lag {b : Bus} {p : Pins} {s : Slave} {w : Seen} (h : b.Is p s w) (hlag : 0 < s.lag) :
    b.readSda.1 = true ∧ b.readSda.2.Is p { s with lag := s.lag - 1 } w := by
  obtain ⟨hpins, hslave, hseen⟩ := h
  rw [Bus.readSda, hslave, if_pos hlag]
  exact ⟨rfl, hpins, rfl, hseen⟩

/-- A poll that reads the line. -/
theorem readSda_line {b : Bus} {p : Pins} {s : Slave} {w : Seen} (h : b.Is p s w) (hlag : s.lag = 0) :
    b.readSda = ((p.level s).sda, b) := by
  rw [Bus.readSda, h.slave, h.pins, if_neg (by omega)]

/-- A byte acknowledged within the tries. -/
theorem iicWaitLoop_ack (lag : ℕ) {t : UInt8} (ht : t.toNat + lag ≤ 250) {b : Bus}
    {answers : List Answer} {w : Seen}
    (h : b.Is ⟨true, true, false⟩ { answers := answers, bits := 9, pull := true, lag := lag } w) :
    (iicWaitLoop t b).1.Is ⟨false, true, false⟩ (Slave.at answers.tail 0) w := by
  induction lag generalizing t b with
  | zero =>
    rw [iicWaitLoop, readSda_line h rfl]
    exact h.fall
  | succ lag ih =>
    obtain ⟨hhigh, hnext⟩ := readSda_lag h (Nat.succ_pos lag)
    have hsucc := toNat_add_one_of_lt (t := t) (by omega)
    have hin : ¬t + 1 > 250 := by
      rw [gt_250_iff]
      omega
    rw [iicWaitLoop, hhigh, if_pos rfl, if_neg hin]
    exact ih (by omega) hnext

/-- No acknowledge bit in 251 polls: a STOP. -/
theorem iicWaitLoop_timeout (n : ℕ) {t : UInt8} (ht : t.toNat + n = 250) {b : Bus}
    (h : b.readSda = (true, b)) : (iicWaitLoop t b).1 = iicStop b := by
  induction n generalizing t with
  | zero =>
    have hout : t + 1 > 250 := by
      rw [gt_250_iff, toNat_add_one_of_lt (by omega)]
      omega
    rw [iicWaitLoop, h, if_pos rfl, if_pos hout]
  | succ n ih =>
    have hsucc := toNat_add_one_of_lt (t := t) (by omega)
    have hin : ¬t + 1 > 250 := by
      rw [gt_250_iff]
      omega
    rw [iicWaitLoop, h, if_pos rfl, if_neg hin]
    exact ih (by omega)

/-! ## A byte and its answer -/

/-- A byte acknowledged within the tries leaves SCL low. -/
theorem byte_ack {b : Bus} {lag : ℕ} {answers : List Answer} {w : Seen}
    (h : b.Between (.ack lag :: answers) w) (hlag : lag ≤ 250) (x : UInt8) :
    (iicWaitAck (iicSendByte x b)).1.Is ⟨false, true, false⟩ (Slave.at answers 0)
      (w.read x true) := by
  obtain ⟨d, hsent⟩ := iicSendByte_spec h (listens_ack lag answers) x
  -- the master lets go of SDA, and the ninth bit is sampled as SCL rises
  have hrise := (hsent.sdaIn_low.iicSda_low true).rise
  have hread := Seen.rise_rises h.bits h.shift x true
  rw [← hread]
  exact iicWaitLoop_ack lag (by simpa using hlag) hrise

/-- A byte that is not acknowledged is followed by a STOP. -/
theorem byte_nack {b : Bus} {answers : List Answer} {w : Seen}
    (h : b.Between (.nack :: answers) w) (hquiet : Listens answers) (x : UInt8) :
    (iicWaitAck (iicSendByte x b)).1.Is ⟨true, true, true⟩ (Slave.at answers 0)
      ((w.read x false).made .stop) := by
  obtain ⟨d, hsent⟩ := iicSendByte_spec h (listens_nack answers) x
  have hrise := (hsent.sdaIn_low.iicSda_low true).rise
  have hread := Seen.rise_rises h.bits h.shift x false
  have hbits : (w.read x false).bits ≠ 8 := by simp [Seen.read_bits h.bits]
  rw [iicWaitAck, iicWaitLoop_timeout 250 rfl (readSda_line hrise rfl)]
  have hfall := (Bus.Is.of_level_eq rfl hrise.sdaOut).fall
  rw [← hread] at hbits ⊢
  exact iicStop_tail hfall hbits hquiet

/-- An answer to a byte written: an acknowledge bit within the tries, or none. -/
def Timely : Answer → Prop
  | .ack lag => lag ≤ 250
  | .nack => True
  | .send _ => False

/-- A slave whose answer is in time listens. -/
theorem Timely.listens {a : Answer} (ha : Timely a) (answers : List Answer) :
    Listens (a :: answers) := by
  cases a with
  | ack lag => exact listens_ack lag answers
  | nack => exact listens_nack answers
  | send data => exact absurd ha id

/-- Whatever the answer, the next byte can be sent. -/
theorem byte_spec {b : Bus} {a : Answer} {answers : List Answer} {w : Seen}
    (h : b.Between (a :: answers) w) (ha : Timely a) (hquiet : Listens answers) (x : UInt8) :
    (iicWaitAck (iicSendByte x b)).1.Between answers (w.slot x a.acks) := by
  cases a with
  | ack lag =>
    exact ⟨⟨_, .inl rfl, byte_ack h ha x⟩, Seen.read_bits h.bits x true,
      Seen.read_shift h.shift x true⟩
  | nack => exact ⟨⟨_, .inr rfl, byte_nack h hquiet x⟩, rfl, rfl⟩
  | send data => exact absurd ha id

/-! ## Reading a byte -/

/-- Each round of the loop clocks in one bit; SCL is high after a round. -/
theorem iicReadLoop_spec {data : UInt8} {answers : List Answer} (n : ℕ) {c : ℕ} (hc : c + n = 8)
    {b : Bus} {w : Seen} (receive : UInt8)
    (h : (b.iicScl false).Is ⟨false, true, false⟩ (Slave.at (.send data :: answers) c) w) :
    ((iicReadLoop n receive b).1.iicScl false).Is ⟨false, true, false⟩
        (Slave.at (.send data :: answers) 8) (w.rises (wireBits data c n)) ∧
      (iicReadLoop n receive b).2 = (wireBits data c n).foldl shiftIn receive := by
  induction n generalizing c b w receive with
  | zero =>
    obtain rfl : c = 8 := hc
    exact ⟨h, rfl⟩
  | succ n ih =>
    have hpull : (Slave.at (.send data :: answers) c).pull = !wireBit data c :=
      Slave.at_send_pull data answers (by omega)
    have hrise := h.rise
    have hfall := hrise.fall
    rw [Slave.fall_clock_at _ (by omega), hpull, Bool.not_not] at hfall
    -- a round ends with SCL high; the fall that opens the next one is part of the invariant
    obtain ⟨hbus, hreceive⟩ := ih (by omega) (shiftIn receive (wireBit data c)) hfall
    have hread := readSda_line hrise rfl
    have hline : (Pins.level ⟨true, true, false⟩ (Slave.at (.send data :: answers) c).clock).sda =
        wireBit data c := by
      change (true && !(Slave.at (.send data :: answers) c).pull) = _
      rw [hpull, Bool.not_not, Bool.true_and]
    have hbit : (if wireBit data c then (receive <<< 1) + 1 else receive <<< 1) =
        shiftIn receive (wireBit data c) := by
      cases wireBit data c <;> simp [shiftIn]
    rw [iicReadLoop, hread, hline, hbit]
    exact ⟨hbus, hreceive⟩

/-- `IIC_Read_Byte(0)` receives the byte that the slave sends, and answers it with a NACK. -/
theorem iicReadByte_spec {b : Bus} {data : UInt8} {answers : List Answer} {w : Seen}
    (h : b.Is ⟨false, true, false⟩ (Slave.at (.send data :: answers) 0) w) (hbits : w.bits = 0)
    (hshift : w.shift = 0) :
    (iicReadByte 0 b).1.Is ⟨false, true, true⟩ (Slave.at answers 0) (w.read data false) ∧
      (iicReadByte 0 b).2 = data := by
  obtain ⟨hbus, hreceive⟩ := iicReadLoop_spec 8 rfl 0 h.sdaIn_low.iicScl_low
  have hread := Seen.rise_rises hbits hshift data false
  rw [foldl_shiftIn_wireBits] at hreceive
  have hnack := ((hbus.sdaOut_low.iicSda_low true).rise).fall
  rw [Slave.fall_clock_at_eight, Slave.at_send_eight_pull] at hnack
  simp only [iicReadByte, if_true, ← hread]
  exact ⟨hnack, hreceive⟩

end Stm32Board.Iic
