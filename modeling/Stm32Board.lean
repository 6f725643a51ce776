import Stm32Board.Common.Mealy
import Stm32Board.Common.ExactFloat
import Stm32Board.Common.Writes
import Stm32Board.Common.Loop
import Stm32Board.Common.RingBuffer
import Stm32Board.Button.Defs
import Stm32Board.Button.Press
import Stm32Board.Button.Scan
import Stm32Board.Lcd.Defs
import Stm32Board.Lcd.Orientation
import Stm32Board.Lcd.Controller
import Stm32Board.Lcd.Ili9341
import Stm32Board.Lcd.Fill
import Stm32Board.Lcd.Window
import Stm32Board.Touch.Defs
import Stm32Board.Touch.Filter
import Stm32Board.Touch.Adjust
import Stm32Board.Touch.Press
import Stm32Board.Touch.Calibration
import Stm32Board.Touch.Convert
import Stm32Board.Eeprom.Defs
import Stm32Board.Eeprom.Record
import Stm32Board.Eeprom.Restart
import Stm32Board.At.Defs
import Stm32Board.At.Contract
import Stm32Board.Uart.Defs
import Stm32Board.Uart.Echo
import Stm32Board.Common.I2c
import Stm32Board.Iic.Defs
import Stm32Board.Iic.Wire
import Stm32Board.Iic.Eeprom
import Stm32Board.Touch.AdjustLoop
import Stm32Board.Touch.Restore
import Stm32Board.Button.Register
import Stm32Board.Lcd.Draw
import Stm32Board.Lcd.Clear
import Stm32Board.Common.ErrorAccumulator
import Stm32Board.Lcd.Line
import Stm32Board.Lcd.Circle
import Stm32Board.Lcd.Number
import Stm32Board.Lcd.Char
import Stm32Board.Lcd.Text
import Stm32Board.Common.ExchangeSort
import Stm32Board.Common.LittleEndian
import Stm32Board.Eeprom.Bytes
import Stm32Board.Lcd.Loops
import Stm32Board.Common.Arith
import Stm32Board.Pwm.Defs
import Stm32Board.Pwm.Beep
import Stm32Board.Button.Cyclic
import Stm32Board.Common.CString
import Stm32Board.At.Client
import Stm32Board.At.Response
import Stm32Board.Common.Canvas
import Stm32Board.Gui.Defs
import Stm32Board.Gui.Area
import Stm32Board.Gui.Invalid
import Stm32Board.Gui.Rect
import Stm32Board.Gui.Render
import Stm32Board.Gui.Object
import Stm32Board.At.Framing
import Stm32Board.Gui.Refresh
import Stm32Board.Common.Linked
import Stm32Board.Rtos.Defs
import Stm32Board.Rtos.Ipc
import Stm32Board.Rtos.Refine
import Stm32Board.Common.Transition
import Stm32Board.Rtos.Schedule
import Stm32Board.Rtos.Waiting
import Stm32Board.Rtos.Run
import Stm32Board.Rtos.Mutex
import Stm32Board.Rtos.Semaphore
import Stm32Board.Rtos.Priority
import Stm32Board.Common.Alarms
import Stm32Board.Rtos.Timer
import Stm32Board.Rtos.Alarm
import Stm32Board.Rtos.Tick
import Stm32Board.Rtos.Stop
import Stm32Board.Rtos.Timeout
import Stm32Board.Rtos.Deadline
import Stm32Board.Rtos.Expired
import Stm32Board.Common.Wakeup
import Stm32Board.Rtos.Mailbox
import Stm32Board.Rtos.MailboxRun
import Stm32Board.Rtos.Event
