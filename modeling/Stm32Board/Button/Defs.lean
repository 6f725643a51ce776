import Stm32Board.Common.Mealy
import Mathlib.Data.Int.Notation

/-!
# The polled push buttons

Reference: `componet_library/button/button.h` and `componet_library/button/button.c`.

A soft timer runs `my_button_scan` every `MY_BUTTON_SCAN_SPACE_MS` ticks. One pass reads the pin of
every registered button, advances its 16-bit press counter and calls the button's callback when the
counter meets one of the event thresholds. Undefined behaviour of the C code (a remainder by zero)
is `none`.
-/

namespace Stm32Board.Button

open Common

def myButtonDownMs : UInt16 := 50
def myButtonHoldMs : UInt16 := 700
def myButtonScanSpaceMs : UInt16 := 20
def myButtonListMax : ℕ := 10

/-- `enum my_button_event`. -/
inductive MyButtonEvent where
  | clickDown
  | clickUp
  | hold
  | holdCyc
  | holdUp
  | none
deriving DecidableEq, Repr

/-- A callback, by its code address; `my_button_callback` pointers are only compared with `RT_NULL`
and called, and the callbacks of the component (`key_cb`, `key_cb1`) only print. -/
abbrev MyButtonCallback : Type := ℕ

/-- `struct my_button`; `cb = none` is the null pointer. -/
structure MyButton where
  pressLogicLevel : UInt8
  cnt : UInt16
  holdCycPeriod : UInt16
  pin : UInt16
  event : MyButtonEvent
  cb : Option MyButtonCallback
deriving DecidableEq, Repr

/-- `MY_BUTTON_CALL`: the event the callback of `b` is run with, if there is a callback. -/
def myButtonCall (b : MyButton) : Option MyButtonEvent :=
  if b.cb ≠ none then some b.event else none

/-- The body of the loop of `my_button_scan` for one button, with the level read at its pin: the
button afterwards and the callback made. -/
def scanButton (pinRead : ℤ) (b : MyButton) : Option (MyButton × Option MyButtonEvent) :=
  let cntOld := b.cnt
  if pinRead = (b.pressLogicLevel.toNat : ℤ) then
    let b := { b with cnt := b.cnt + 1 }
    if b.cnt = myButtonDownMs / myButtonScanSpaceMs then
      let b := { b with event := .clickDown }
      some (b, myButtonCall b)
    else if b.cnt = myButtonHoldMs / myButtonScanSpaceMs then
      let b := { b with event := .hold }
      some (b, myButtonCall b)
    else if b.cnt > myButtonHoldMs / myButtonScanSpaceMs then
      let b := { b with event := .holdCyc }
      if b.holdCycPeriod = 0 then some (b, none)
      -- the remainder below is taken by this quotient
      else if b.holdCycPeriod / myButtonScanSpaceMs = 0 then none
      else if b.cnt % (b.holdCycPeriod / myButtonScanSpaceMs) = 0 then some (b, myButtonCall b)
      else some (b, none)
    else some (b, none)
  else
    let b := { b with cnt := 0 }
    if cntOld ≥ myButtonDownMs / myButtonScanSpaceMs ∧
        cntOld < myButtonHoldMs / myButtonScanSpaceMs then
      let b := { b with event := .clickUp }
      some (b, myButtonCall b)
    else if cntOld ≥ myButtonHoldMs / myButtonScanSpaceMs then
      let b := { b with event := .holdUp }
      some (b, myButtonCall b)
    else some (b, none)

/-- A button object, by its address. -/
abbrev ButtonId : Type := ℕ

/-- The levels `rt_pin_read` returns during one pass, by pin number. -/
abbrev PinLevels : Type := UInt16 → ℤ

/-- The pin modes `my_button_register` programs. -/
inductive PinMode where
  | inputPullup
  | inputPulldown
deriving DecidableEq, Repr

/-- The button objects in memory, the modes programmed so far, and the registered buttons: entries
`0` to `num - 1` of `button_manage.button_list`. -/
structure ButtonManage where
  objects : ButtonId → MyButton
  pinMode : UInt16 → Option PinMode
  buttonList : List ButtonId

/-- `my_button_register`. The list write is undefined once all `MY_BUTTON_LIST_MAX` entries are
taken. -/
def myButtonRegister (m : ButtonManage) (button : ButtonId) : Option ButtonManage :=
  let b := m.objects button
  let mode := if b.pressLogicLevel = 0 then PinMode.inputPullup else PinMode.inputPulldown
  if m.buttonList.length < myButtonListMax then
    some
      { objects := Function.update m.objects button { b with cnt := 0, event := .none }
        pinMode := Function.update m.pinMode b.pin (some mode)
        buttonList := m.buttonList ++ [button] }
  else none

/-- The step of one button object in a pass with the given pin levels. -/
def buttonStep (_ : ButtonId) (b : MyButton) (levels : PinLevels) :
    Option (MyButton × Option MyButtonEvent) :=
  scanButton (levels b.pin) b

/-- One run of `my_button_scan`: every entry of the list in turn. Each entry contributes the
callback it made, if any. -/
def myButtonScan (m : ButtonManage) (levels : PinLevels) :
    Option (ButtonManage × List (ButtonId × Option MyButtonEvent)) :=
  (Mealy.sweepStep buttonStep m.buttonList m.objects levels).map fun r =>
    ({ m with objects := r.1 }, r.2)

end Stm32Board.Button
