import Stm32Board.Pwm.Defs
import Mathlib.Order.Nat
import Mathlib.Order.MinMax

/-!
# From a frequency and a volume to timer registers

The exact values of `drv_pwm_set` are quotients of quotients: the period is divided by 1000 and then by
the divider, the pulse by the divider and then by 1000 (`periodOf`, `pulseOf`). Nested floors do not
depend on the order of the divisors, so a pulse not longer than the period stays so in ticks, and
nothing on the way from `beep_set` to the registers wraps (`beepSet_registers`).
-/

namespace Stm32Board.Pwm

open Common Arith

/-! ## The exact values -/

/-- The ticks of a clock of `c` megahertz in `ns` nanoseconds. -/
def ticksOf (c ns : ℕ) : ℕ := ns * c / 1000

/-- The divider that brings the ticks of a period into 16 bits. -/
def dividerOf (c ns : ℕ) : ℕ := ticksOf c ns / 65535 + 1

/-- The period in divided ticks. -/
def periodOf (c ns : ℕ) : ℕ := ticksOf c ns / dividerOf c ns

/-- The pulse in the divided ticks of its period. -/
def pulseOf (c ns pulse : ℕ) : ℕ := pulse * c / dividerOf c ns / 1000

/-- A longer time is no fewer ticks. -/
theorem ticksOf_mono (c : ℕ) {m n : ℕ} (h : m ≤ n) : ticksOf c m ≤ ticksOf c n :=
  Nat.div_le_div_right (Nat.mul_le_mul_right c h)

/-- The divider is at least one. -/
theorem dividerOf_pos (c ns : ℕ) : 0 < dividerOf c ns := Nat.succ_pos _

/-- The period fits the counter. -/
theorem periodOf_le (c ns : ℕ) : periodOf c ns ≤ 65535 := by
  rw [periodOf]
  refine Nat.div_le_of_le_mul ?_
  rw [dividerOf]
  omega

/-- A period of three ticks keeps at least three after the division. -/
theorem three_le_periodOf {c ns : ℕ} (h : 3 ≤ ticksOf c ns) : 3 ≤ periodOf c ns := by
  rw [periodOf, Nat.le_div_iff_mul_le (dividerOf_pos c ns), dividerOf]
  omega

/-- A longer pulse is no fewer counts. -/
theorem pulseOf_mono (c ns : ℕ) {m n : ℕ} (h : m ≤ n) : pulseOf c ns m ≤ pulseOf c ns n :=
  Nat.div_le_div_right (Nat.div_le_div_right (Nat.mul_le_mul_right c h))

/-- The floors of the pulse, taken in the order of the period's. -/
theorem pulseOf_eq (c ns pulse : ℕ) : pulseOf c ns pulse = ticksOf c pulse / dividerOf c ns := by
  rw [pulseOf, ticksOf, Nat.div_div_eq_div_mul, Nat.div_div_eq_div_mul, Nat.mul_comm 1000]

/-- A pulse not longer than the period has no more ticks. -/
theorem pulseOf_le_periodOf (c : ℕ) {ns pulse : ℕ} (h : pulse ≤ ns) :
    pulseOf c ns pulse ≤ periodOf c ns := by
  rw [pulseOf_eq]
  exact Nat.div_le_div_right (ticksOf_mono c h)

/-- The compare value of a pulse, once raised to two ticks. -/
def compareOf (c ns pulse : ℕ) : ℕ := max (pulseOf c ns pulse) 2 - 1

/-- And no smaller compare value. -/
theorem compareOf_mono (c ns : ℕ) {m n : ℕ} (h : m ≤ n) : compareOf c ns m ≤ compareOf c ns n :=
  Nat.sub_le_sub_right (max_le_max (pulseOf_mono c ns h) le_rfl) 1

/-! ## The driver -/

/-- The megahertz of the timer. -/
def clockOf (pclk1 : UInt32) : ℕ := pclk1.toNat * 2 / 1000000

/-- The clock and the times a request can have without anything wrapping. -/
structure InRange (pclk1 : UInt32) (configuration : PwmConfiguration) : Prop where
  clock_lt : pclk1.toNat * 2 < 4294967296
  ticks_lt : ticksOf (clockOf pclk1) configuration.period.toNat < 4294967296
  three_le : 3 ≤ ticksOf (clockOf pclk1) configuration.period.toNat
  pulse_le : configuration.pulse.toNat ≤ configuration.period.toNat

section Driver

variable {pclk1 : UInt32} {configuration : PwmConfiguration}

/-- A time in nanoseconds times the megahertz of the clock fits 64 bits. -/
theorem InRange.product_lt (h : InRange pclk1 configuration) (ns : UInt32) :
    ns.toNat * clockOf pclk1 < 18446744073709551616 := by
  have hclock : clockOf pclk1 < 4294967296 := by
    have hlt := h.clock_lt
    rw [clockOf]
    omega
  exact Nat.mul_lt_mul'' ns.toNat_lt hclock

/-- The pulse is divided by the divider and then by 1000. -/
theorem exactly_pulseTicks (h : InRange pclk1 configuration) {timClock : UInt64} {psc : UInt32}
    (hclock : timClock.toNat = clockOf pclk1)
    (hpsc : psc.toNat = dividerOf (clockOf pclk1) configuration.period.toNat) (period : UInt32) :
    Exactly
      (do
        let pulse ← mul64 configuration.pulse.toUInt64 timClock
        let pulse ← div64 pulse psc.toUInt64
        let pulse ← div64 pulse 1000
        let pulse ← narrow32 pulse
        return ({ psc := psc.toUInt64, period := period, pulse := pulse } : PwmTicks))
      fun t => t.psc.toNat = psc.toNat ∧ t.period = period ∧
        t.pulse.toNat =
          pulseOf (clockOf pclk1) configuration.period.toNat configuration.pulse.toNat := by
  have hpos : 0 < psc.toUInt64.toNat := by
    rw [UInt32.toNat_toUInt64, hpsc]
    exact dividerOf_pos _ _
  -- the product is the largest value of the computation
  refine (exactly_mul64 ?_).bind fun product hproduct => ?_
  · rw [UInt32.toNat_toUInt64, hclock]
    exact h.product_lt _
  rw [UInt32.toNat_toUInt64, hclock] at hproduct
  refine (exactly_div64 hpos).bind fun divided hdivided => ?_
  refine (exactly_div64 (by decide)).bind fun wide hwide => ?_
  replace hwide : wide.toNat =
      pulseOf (clockOf pclk1) configuration.period.toNat configuration.pulse.toNat := by
    rw [hwide, hdivided, hproduct, UInt32.toNat_toUInt64, hpsc]
    rfl
  have hle := periodOf_le (clockOf pclk1) configuration.period.toNat
  have hpulse := pulseOf_le_periodOf (clockOf pclk1) h.pulse_le
  refine (exactly_narrow32 (by omega)).bind fun pulse hnarrow => .pure ⟨?_, rfl, ?_⟩
  · rw [UInt32.toNat_toUInt64]
  · rw [hnarrow, hwide]

/-- The values of `drv_pwm_set` are the exact ones, and the period needs no raising. -/
theorem exactly_pwmTicks (h : InRange pclk1 configuration) :
    Exactly (pwmTicks pclk1 configuration) fun t =>
      t.psc.toNat = dividerOf (clockOf pclk1) configuration.period.toNat ∧
      t.period.toNat = periodOf (clockOf pclk1) configuration.period.toNat ∧
      t.pulse.toNat =
        pulseOf (clockOf pclk1) configuration.period.toNat configuration.pulse.toNat := by
  have hthree := three_le_periodOf h.three_le
  have hpos := dividerOf_pos (clockOf pclk1) configuration.period.toNat
  rw [pwmTicks]
  refine (exactly_mul32 h.clock_lt).bind fun hz hhz => ?_
  refine (exactly_div64 (by decide)).bind fun timClock hclock => ?_
  replace hclock : timClock.toNat = clockOf pclk1 := by
    rw [hclock, UInt32.toNat_toUInt64, hhz]
    rfl
  -- the period, divided by 1000 and then by the divider
  refine (exactly_mul64 ?_).bind fun product hproduct => ?_
  · rw [UInt32.toNat_toUInt64, hclock]
    exact h.product_lt _
  rw [UInt32.toNat_toUInt64, hclock] at hproduct
  refine (exactly_div64 (by decide)).bind fun wide hwide => ?_
  replace hwide : wide.toNat = ticksOf (clockOf pclk1) configuration.period.toNat := by
    rw [hwide, hproduct]
    rfl
  refine (exactly_narrow32 (by rw [hwide]; exact h.ticks_lt)).bind fun ticks hnarrow => ?_
  rw [hwide] at hnarrow
  refine (exactly_div32 (by decide)).bind fun quotient hquotient => ?_
  have hlt := ticks.toNat_lt
  refine (exactly_add32 ?_).bind fun psc hpsc => ?_
  · rw [hquotient]
    show ticks.toNat / 65535 + 1 < 4294967296
    omega
  replace hpsc : psc.toNat = dividerOf (clockOf pclk1) configuration.period.toNat := by
    rw [hpsc, hquotient, hnarrow]
    rfl
  refine (exactly_div64 (by rw [UInt32.toNat_toUInt64, hpsc]; exact hpos)).bind fun wide₂ hwide₂ => ?_
  replace hwide₂ : wide₂.toNat = periodOf (clockOf pclk1) configuration.period.toNat := by
    rw [hwide₂, UInt32.toNat_toUInt64, UInt32.toNat_toUInt64, hnarrow, hpsc]
    rfl
  have hle := periodOf_le (clockOf pclk1) configuration.period.toNat
  refine (exactly_narrow32 (by omega)).bind fun period hperiod => ?_
  rw [hwide₂] at hperiod
  have hraised : ¬period < minPeriod := by
    rw [UInt32.lt_iff_toNat_lt, hperiod]
    exact Nat.not_lt.mpr hthree
  refine (exactly_pulseTicks h hclock hpsc _).mono fun t ⟨hpsc', hperiod', hpulse⟩ => ?_
  refine ⟨hpsc'.trans hpsc, ?_, hpulse⟩
  rw [hperiod', if_neg hraised, hperiod]

/-- A pulse that fits its period is only ever raised. -/
theorem toNat_clampPulse {period pulse : UInt32} (h : pulse.toNat ≤ period.toNat) :
    (clampPulse period pulse).toNat = max pulse.toNat 2 := by
  have hmin : pulse < minPulse ↔ pulse.toNat < 2 := UInt32.lt_iff_toNat_lt
  have hmax : ¬pulse > period := by
    rw [gt_iff_lt, UInt32.lt_iff_toNat_lt]
    exact Nat.not_lt.mpr h
  rw [clampPulse, if_neg hmax]
  by_cases hsmall : pulse.toNat < 2
  · rw [if_pos (hmin.mpr hsmall), max_eq_right (by omega)]
    rfl
  · rw [if_neg (mt hmin.mp hsmall), max_eq_left (by omega)]

/-- The registers of a timer programmed for a clock of `c` megahertz, on channel 4. -/
structure Programmed (c ns pulse : ℕ) (htim : TimHandle) : Prop where
  psc_eq : htim.psc.toNat = dividerOf c ns - 1
  arr_eq : htim.arr.toNat = periodOf c ns - 1
  ccr4_eq : htim.ccr4.toNat = compareOf c ns pulse

/-- `drv_pwm_set` stays in range and programs the timer. -/
theorem exactly_drvPwmSet (h : InRange pclk1 configuration) (hchannel : configuration.channel = 4)
    (htim : TimHandle) :
    Exactly (drvPwmSet pclk1 htim configuration) fun r =>
      Programmed (clockOf pclk1) configuration.period.toNat configuration.pulse.toNat r.1 := by
  have hthree := three_le_periodOf h.three_le
  have hle := pulseOf_le_periodOf (clockOf pclk1) h.pulse_le
  have hdivider : dividerOf (clockOf pclk1) configuration.period.toNat < 4294967296 := by
    have hlt := h.ticks_lt
    rw [dividerOf]
    omega
  rw [drvPwmSet, hchannel]
  -- one line of the driver after the other, each in range
  refine (exactly_sub32 (by decide)).bind fun ch hch => ?_
  replace hch : ch.toNat = 3 := hch
  refine (exactly_mul32 (by rw [hch]; decide)).bind fun channel hchannel' => ?_
  replace hchannel' : channel = 12 := by
    rw [← UInt32.toNat_inj, hchannel', hch]
    rfl
  refine (exactly_pwmTicks h).bind fun t ⟨hpsc, hperiod, hpulse⟩ => ?_
  refine (exactly_sub64 (by rw [hpsc]; exact dividerOf_pos _ _)).bind fun wide hwide => ?_
  replace hwide : wide.toNat = dividerOf (clockOf pclk1) configuration.period.toNat - 1 := by
    rw [hwide, hpsc]
    rfl
  refine (exactly_narrow32 (by omega)).bind fun prescaler hprescaler => ?_
  refine (exactly_sub32 (by rw [hperiod]; exact le_trans (by decide) hthree)).bind
    fun autoreload hautoreload => ?_
  have hclamp : (clampPulse t.period t.pulse).toNat = max t.pulse.toNat 2 :=
    toNat_clampPulse (by omega)
  have hone : (1 : UInt32).toNat = 1 := rfl
  refine (exactly_sub32 (by rw [hclamp, hone]; omega)).bind fun compare hcompare => .pure ?_
  rw [hclamp, hpulse] at hcompare
  rw [hperiod] at hautoreload
  rw [hwide] at hprescaler
  subst hchannel'
  exact ⟨hprescaler, hautoreload, hcompare⟩

end Driver

/-! ## The buzzer -/

/-- The period of a frequency in nanoseconds. -/
def beepPeriod (freq : UInt16) : ℕ := 1000000000 / freq.toNat

/-- The pulse of a volume. -/
def beepPulse (freq : UInt16) (volume : UInt8) : ℕ :=
  beepPeriod freq - beepPeriod freq / 100 * volume.toNat

/-- A higher volume is a shorter pulse. -/
theorem beepPulse_anti (freq : UInt16) {v v' : UInt8} (h : v ≤ v') :
    beepPulse freq v' ≤ beepPulse freq v :=
  Nat.sub_le_sub_left (Nat.mul_le_mul_left _ (UInt8.le_iff_toNat_le.mp h)) _

/-- The pulse is no longer than the period. -/
theorem beepPulse_le (freq : UInt16) (volume : UInt8) : beepPulse freq volume ≤ beepPeriod freq :=
  Nat.sub_le _ _

/-- The period of a 16-bit frequency in nanoseconds. -/
theorem beepPeriod_bounds {freq : UInt16} (hfreq : 1 ≤ freq) :
    15000 ≤ beepPeriod freq ∧ beepPeriod freq ≤ 1000000000 := by
  have hone : 0 < freq.toNat := UInt16.le_iff_toNat_le.mp hfreq
  have hlt := freq.toNat_lt
  refine ⟨?_, Nat.div_le_self _ _⟩
  rw [beepPeriod, Nat.le_div_iff_mul_le hone]
  omega

/-- The request is computed without overflow. -/
theorem exactly_beepRequest {freq : UInt16} (hfreq : 1 ≤ freq) {volume : UInt8}
    (hvolume : volume ≤ 100) :
    Exactly (beepRequest freq volume) fun r =>
      r.channel = 4 ∧ r.period.toNat = beepPeriod freq ∧ r.pulse.toNat = beepPulse freq volume := by
  have hone : 0 < freq.toNat := UInt16.le_iff_toNat_le.mp hfreq
  have hcut : beepPeriod freq / 100 * volume.toNat ≤ beepPeriod freq :=
    le_trans (Nat.mul_le_mul_left _ (UInt8.le_iff_toNat_le.mp hvolume)) (Nat.div_mul_le_self _ _)
  have hbounds := beepPeriod_bounds hfreq
  rw [beepRequest]
  refine (exactly_div32 (by rwa [UInt16.toNat_toUInt32])).bind fun period hperiod => ?_
  replace hperiod : period.toNat = beepPeriod freq := by
    rw [hperiod, UInt16.toNat_toUInt32]
    rfl
  refine (exactly_div32 (by decide)).bind fun part hpart => ?_
  replace hpart : part.toNat = beepPeriod freq / 100 := by
    rw [hpart, hperiod]
    rfl
  refine (exactly_mul32 ?_).bind fun cut hcut' => ?_
  · rw [hpart, UInt8.toNat_toUInt32]
    omega
  replace hcut' : cut.toNat = beepPeriod freq / 100 * volume.toNat := by
    rw [hcut', hpart, UInt8.toNat_toUInt32]
  refine (exactly_sub32 (by omega)).bind fun pulse hpulse => .pure ⟨rfl, hperiod, ?_⟩
  rw [hpulse, hperiod, hcut']
  rfl

section Beep

variable {pclk1 : UInt32} (hlow : 1000000 ≤ pclk1.toNat * 2) (hhigh : pclk1.toNat * 2 ≤ 200000000)
  {freq : UInt16} (hfreq : 1 ≤ freq)

include hlow hhigh hfreq

/-- The ticks of the period fit the 32-bit arithmetic of the driver. -/
theorem beepTicks_bounds : 15 ≤ ticksOf (clockOf pclk1) (beepPeriod freq) ∧
    ticksOf (clockOf pclk1) (beepPeriod freq) ≤ 200000000 := by
  obtain ⟨hge, hle⟩ := beepPeriod_bounds hfreq
  have hclock : 1 ≤ clockOf pclk1 ∧ clockOf pclk1 ≤ 200 := by
    rw [clockOf]
    omega
  have hmin : 15000 * 1 ≤ beepPeriod freq * clockOf pclk1 := Nat.mul_le_mul hge hclock.1
  have hmax : beepPeriod freq * clockOf pclk1 ≤ 1000000000 * 200 := Nat.mul_le_mul hle hclock.2
  rw [ticksOf]
  omega

/-- What the buzzer requests is in range for every timer clock of 1 to 200 MHz. -/
theorem inRange_beep {configuration : PwmConfiguration}
    (hperiod : configuration.period.toNat = beepPeriod freq)
    (hpulse : configuration.pulse.toNat ≤ configuration.period.toNat) :
    InRange pclk1 configuration := by
  obtain ⟨hge, hle⟩ := beepTicks_bounds hlow hhigh hfreq
  exact ⟨by omega, by rw [hperiod]; omega, by rw [hperiod]; omega, hpulse⟩

/-- `beep_set` stays in range from the frequency to the registers. -/
theorem exactly_beepSet {volume : UInt8} (hvolume : volume ≤ 100) (htim : TimHandle) :
    Exactly (beepSet pclk1 (some htim) freq volume) fun r =>
      ∃ regs, r = (some regs, 0) ∧
        Programmed (clockOf pclk1) (beepPeriod freq) (beepPulse freq volume) regs := by
  rw [beepSet]
  refine (exactly_beepRequest hfreq hvolume).bind fun request ⟨hchannel, hperiod, hpulse⟩ => ?_
  have hrange : InRange pclk1 request := inRange_beep hlow hhigh hfreq hperiod
    (by rw [hperiod, hpulse]; exact beepPulse_le freq volume)
  have hset := exactly_drvPwmSet hrange hchannel htim
  rw [hperiod, hpulse] at hset
  rw [rtPwmSet]
  refine (hset.bind fun r hr => .pure ?_).bind (P := fun r => ∃ regs, r.1 = some regs ∧
    Programmed (clockOf pclk1) (beepPeriod freq) (beepPulse freq volume) regs) fun r hr => ?_
  · exact ⟨r.1, rfl, hr⟩
  · obtain ⟨regs, hregs, hprogrammed⟩ := hr
    exact .pure ⟨regs, by rw [hregs], hprogrammed⟩

/-- **The buzzer's registers.** For every frequency, every volume up to 100 and every timer clock of 1
to 200 MHz the whole computation is exact; the pulse fits the period in nanoseconds and in ticks, the
registers fit 16 bits with the compare value between 1 and the auto-reload value, and a higher volume
has no higher compare value. -/
theorem beepSet_registers (htim : TimHandle) :
    (∀ volume ≤ 100,
      Exactly (beepRequest freq volume) (fun request => request.pulse ≤ request.period ∧
        Exactly (pwmTicks pclk1 request) fun ticks => ticks.pulse ≤ ticks.period) ∧
      Exactly (beepSet pclk1 (some htim) freq volume) fun r => ∃ regs, r.1 = some regs ∧
        regs.psc.toNat < 65536 ∧ regs.arr.toNat < 65536 ∧ 1 ≤ regs.ccr4 ∧ regs.ccr4 ≤ regs.arr) ∧
    ∀ v v' : UInt8, v ≤ v' → v' ≤ 100 →
      Exactly (beepSet pclk1 (some htim) freq v) fun r =>
        Exactly (beepSet pclk1 (some htim) freq v') fun r' =>
          ∃ regs regs', r.1 = some regs ∧ r'.1 = some regs' ∧ regs'.ccr4 ≤ regs.ccr4 := by
  -- the request, the registers, and the volume against the compare value
  refine ⟨fun volume hvolume => ⟨?_, ?_⟩, fun v v' hle hv' => ?_⟩
  · refine (exactly_beepRequest hfreq hvolume).mono fun request ⟨_, hperiod, hpulse⟩ => ?_
    have hfits : request.pulse.toNat ≤ request.period.toNat := by
      rw [hperiod, hpulse]
      exact beepPulse_le freq volume
    have hrange : InRange pclk1 request := inRange_beep hlow hhigh hfreq hperiod hfits
    refine ⟨UInt32.le_iff_toNat_le.mpr hfits, (exactly_pwmTicks hrange).mono fun t ht => ?_⟩
    obtain ⟨-, hticks, hpulse'⟩ := ht
    rw [UInt32.le_iff_toNat_le, hticks, hpulse']
    exact pulseOf_le_periodOf _ hfits
  · refine (exactly_beepSet hlow hhigh hfreq hvolume htim).mono fun r ⟨regs, hr, hregs⟩ => ?_
    obtain ⟨hge, hmax⟩ := beepTicks_bounds hlow hhigh hfreq
    have hthree : 3 ≤ periodOf (clockOf pclk1) (beepPeriod freq) :=
      three_le_periodOf (by omega)
    have hperiod := periodOf_le (clockOf pclk1) (beepPeriod freq)
    have hpulse := pulseOf_le_periodOf (clockOf pclk1) (beepPulse_le freq volume)
    refine ⟨regs, by rw [hr], ?_, ?_, ?_, ?_⟩
    · rw [hregs.psc_eq, dividerOf]
      omega
    · rw [hregs.arr_eq]
      omega
    · rw [UInt32.le_iff_toNat_le, hregs.ccr4_eq, compareOf]
      show 1 ≤ _
      omega
    · rw [UInt32.le_iff_toNat_le, hregs.ccr4_eq, hregs.arr_eq, compareOf]
      omega
  · refine (exactly_beepSet hlow hhigh hfreq (UInt8.le_trans hle hv') htim).mono
      fun r ⟨regs, hr, hregs⟩ => ?_
    refine (exactly_beepSet hlow hhigh hfreq hv' htim).mono fun r' ⟨regs', hr', hregs'⟩ => ?_
    refine ⟨regs, regs', by rw [hr], by rw [hr'], ?_⟩
    rw [UInt32.le_iff_toNat_le, hregs.ccr4_eq, hregs'.ccr4_eq]
    exact compareOf_mono _ _ (beepPulse_anti freq hle)

end Beep

/-- A tone of 2 kHz on a 72 MHz timer. -/
theorem beepSet_registers_tone :
    Exactly (beepSet 36000000 (some ⟨0, 0, 0, 0, 0, 0, 0, 0, 0⟩) 2000 25) fun r =>
      ∃ regs, r.1 = some regs ∧ regs.psc.toNat < 65536 ∧ regs.arr.toNat < 65536 ∧
        1 ≤ regs.ccr4 ∧ regs.ccr4 ≤ regs.arr := by
  have hlow : 1000000 ≤ (36000000 : UInt32).toNat * 2 := by decide
  have hhigh : (36000000 : UInt32).toNat * 2 ≤ 200000000 := by decide
  have hfreq : (1 : UInt16) ≤ 2000 := by decide
  exact ((beepSet_registers hlow hhigh hfreq ⟨0, 0, 0, 0, 0, 0, 0, 0, 0⟩).1 25 (by decide)).2

end Stm32Board.Pwm
