import Stm32Board.Common.Arith

/-!
# The buzzer and its timer

Reference: `beep_set` of `componet_library/beep/beep.c`, `rt_pwm_set` of
`components/drivers/misc/rt_drv_pwm.c`, `drv_pwm_set` of `drivers/drv_pwm.c`.

`beep_set` turns a frequency and a volume into a period and a pulse in nanoseconds; the driver turns
these into the registers of a timer that runs at twice the frequency of `PCLK1`. The board is an
STM32F1, so the driver has no other clock to choose.
-/

namespace Stm32Board.Pwm

open Common Arith

def rtEok : ℤ := 0
def rtEio : ℤ := 8

def maxPeriod : UInt32 := 65535
def minPeriod : UInt32 := 3
def minPulse : UInt32 := 2

/-- `struct rt_pwm_configuration`, with the times in nanoseconds. -/
structure PwmConfiguration where
  channel : UInt32
  period : UInt32
  pulse : UInt32
deriving DecidableEq, Repr

/-- `TIM_HandleTypeDef`: the registers of the instance and `Init.Period`. -/
structure TimHandle where
  psc : UInt32
  arr : UInt32
  ccr1 : UInt32
  ccr2 : UInt32
  ccr3 : UInt32
  ccr4 : UInt32
  cnt : UInt32
  egr : UInt32
  initPeriod : UInt32
deriving DecidableEq, Repr

def TimHandle.setPrescaler (htim : TimHandle) (v : UInt32) : TimHandle := { htim with psc := v }

def TimHandle.setAutoreload (htim : TimHandle) (v : UInt32) : TimHandle :=
  { htim with arr := v, initPeriod := v }

/-- `__HAL_TIM_SET_COMPARE`, for the channel numbers of the HAL: `0x0`, `0x4`, `0x8` and any other. -/
def TimHandle.setCompare (htim : TimHandle) (channel v : UInt32) : TimHandle :=
  if channel = 0x0 then { htim with ccr1 := v }
  else if channel = 0x4 then { htim with ccr2 := v }
  else if channel = 0x8 then { htim with ccr3 := v }
  else { htim with ccr4 := v }

def TimHandle.setCounter (htim : TimHandle) (v : UInt32) : TimHandle := { htim with cnt := v }

/-- `HAL_TIM_GenerateEvent`. -/
def TimHandle.generateEvent (htim : TimHandle) (eventSource : UInt32) : TimHandle :=
  { htim with egr := eventSource }

def timEventsourceUpdate : UInt32 := 1

/-- The values `drv_pwm_set` computes: the divider, the period raised to `MIN_PERIOD`, and the pulse
before it is clamped. -/
structure PwmTicks where
  psc : UInt64
  period : UInt32
  pulse : UInt32
deriving DecidableEq, Repr

/-- The arithmetic of `drv_pwm_set`; `pclk1` is what `HAL_RCC_GetPCLK1Freq` returns. -/
def pwmTicks (pclk1 : UInt32) (configuration : PwmConfiguration) : Arith PwmTicks := do
  let timClock ← mul32 pclk1 2
  let timClock ← div64 timClock.toUInt64 1000000
  let period ← mul64 configuration.period.toUInt64 timClock
  let period ← div64 period 1000
  let period ← narrow32 period
  let psc ← div32 period maxPeriod
  let psc ← add32 psc 1
  let period ← div64 period.toUInt64 psc.toUInt64
  let period ← narrow32 period
  let period := if period < minPeriod then minPeriod else period
  let pulse ← mul64 configuration.pulse.toUInt64 timClock
  let pulse ← div64 pulse psc.toUInt64
  let pulse ← div64 pulse 1000
  let pulse ← narrow32 pulse
  return { psc := psc.toUInt64, period := period, pulse := pulse }

/-- The pulse is raised to `MIN_PULSE`, or else lowered to the period. -/
def clampPulse (period pulse : UInt32) : UInt32 :=
  if pulse < minPulse then minPulse else if pulse > period then period else pulse

def drvPwmSet (pclk1 : UInt32) (htim : TimHandle) (configuration : PwmConfiguration) :
    Arith (TimHandle × ℤ) := do
  let channel ← sub32 configuration.channel 1
  let channel ← mul32 0x04 channel
  let ticks ← pwmTicks pclk1 configuration
  let prescaler ← sub64 ticks.psc 1
  let prescaler ← narrow32 prescaler
  let htim := htim.setPrescaler prescaler
  let autoreload ← sub32 ticks.period 1
  let htim := htim.setAutoreload autoreload
  let compare ← sub32 (clampPulse ticks.period ticks.pulse) 1
  let htim := ((htim.setCompare channel compare).setCounter 0).generateEvent timEventsourceUpdate
  return (htim, rtEok)

/-- `rt_pwm_set`, whose `PWM_CMD_SET` ends in `drv_pwm_set`; `none` is the null pointer. -/
def rtPwmSet (pclk1 : UInt32) (device : Option TimHandle) (channel period pulse : UInt32) :
    Arith (Option TimHandle × ℤ) :=
  match device with
  | none => return (none, -rtEio)
  | some htim => do
    let r ← drvPwmSet pclk1 htim { channel := channel, period := period, pulse := pulse }
    return (some r.1, r.2)

/-! ## The buzzer -/

def beepPwmCh : UInt32 := 4

/-- The configuration `beep_set` asks for. -/
def beepRequest (freq : UInt16) (volume : UInt8) : Arith PwmConfiguration := do
  let period ← div32 1000000000 freq.toUInt32
  let step ← div32 period 100
  let step ← mul32 step volume.toUInt32
  let pulse ← sub32 period step
  return { channel := beepPwmCh, period := period, pulse := pulse }

/-- `beep_set`. The result of `rt_pwm_set` is not looked at. -/
def beepSet (pclk1 : UInt32) (pwmDevice : Option TimHandle) (freq : UInt16) (volume : UInt8) :
    Arith (Option TimHandle × ℤ) := do
  let request ← beepRequest freq volume
  let r ← rtPwmSet pclk1 pwmDevice request.channel request.period request.pulse
  return (r.1, 0)

end Stm32Board.Pwm
