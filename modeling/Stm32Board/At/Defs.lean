import Stm32Board.Common.Loop
import Mathlib.Data.Int.Notation
import Mathlib.Data.Nat.Notation

/-!
# The AT client application

Reference: `componet_library/TCP_client/TCP_client.c`.

`TCP_send_AT` creates a response object, executes a command once or twice, parses the first line,
prints all lines and deletes the response. What the AT library answers is an input; what is called is
the output. A call that never returns has no return value.
-/

namespace Stm32Board.At

open Common

def rtEok : ℤ := 0

/-- A response object, by its address. -/
abbrev RespId : Type := ℕ

/-- A call of the AT library. -/
inductive AtOp where
  | createResp (bufSize : ℕ) (resp : Option RespId)
  | execCmd (resp : RespId) (cmd : String)
  | parseLineArgs (resp : RespId) (line : ℕ) (expr : String)
  | getLine (resp : RespId) (line : ℕ)
  | deleteResp (resp : RespId)
  | clientSend (data : String)
  | setEndSign (ch : Char)
deriving DecidableEq, Repr

/-- What the library answers during one `TCP_send_AT`: the response created, the results of the
first and the second try, the number of arguments parsed, and `resp->line_counts`. -/
structure SendOutcome where
  created : Option RespId
  exec : ℤ
  execAgain : ℤ
  parsed : ℤ
  lineCounts : ℕ
deriving DecidableEq, Repr

/-- The calls made by one `TCP_send_AT`, and its result unless it never returns. -/
structure SendResult where
  ops : List AtOp
  ret : Option ℤ
deriving DecidableEq, Repr

/-- `for(i=1;i<=resp->line_counts;i++)` with an 8-bit `i`, printing each line. -/
def showLines (resp : RespId) (lineCounts : ℕ) : Option (List AtOp) :=
  forLoop (· + 1) (fun i : UInt8 => decide (i.toNat ≤ lineCounts))
    (fun i => some [.getLine resp i.toNat]) fuelU8 1

def tcpSendAt (commend : String) (structBuff : ℕ) (o : SendOutcome) : SendResult :=
  match o.created with
  | none => { ops := [.createResp structBuff none], ret := some (-1) }
  | some resp =>
    let create := [.createResp structBuff (some resp), .execCmd resp commend]
    let retry := if o.exec < 0 then [.execCmd resp commend] else []
    if o.exec < 0 ∧ o.execAgain < 0 then { ops := create ++ retry, ret := some (-2) }
    else
      let parse := [.parseLineArgs resp 1 "%s\n"]
      if o.parsed ≤ 0 then { ops := create ++ retry ++ parse, ret := some (-3) }
      else
        match showLines resp o.lineCounts with
        | none => { ops := create ++ retry ++ parse, ret := none }
        | some lines =>
          { ops := create ++ retry ++ parse ++ lines ++ [.deleteResp resp], ret := some rtEok }

/-! ## The command sequences -/

/-- What one of the functions below does: a `TCP_send_AT`, or a call of the library. -/
inductive AppEvent where
  | sent (r : SendResult)
  | lib (op : AtOp)
deriving DecidableEq, Repr

structure CallResult where
  events : List AppEvent
  ret : Option ℤ
deriving DecidableEq, Repr

/-- The answers to the successive `TCP_send_AT` of one call. -/
abbrev Outcomes : Type := ℕ → SendOutcome

/-- Send the commands in turn, with `after` following each success. The call ends with `0` at the
first command that does not return `RT_EOK`, and with `rest` when all did. -/
def sendCommands (structBuff : ℕ) (after rest : List AtOp) :
    List String → Outcomes → CallResult
  | [], _ => { events := rest.map .lib, ret := some rtEok }
  | commend :: commends, o =>
    let r := tcpSendAt commend structBuff (o 0)
    match r.ret with
    | none => { events := [.sent r], ret := none }
    | some v =>
      if v ≠ rtEok then { events := [.sent r], ret := some 0 }
      else
        let t := sendCommands structBuff after rest commends fun n => o (n + 1)
        { events := .sent r :: after.map .lib ++ t.events, ret := t.ret }

def linkWifiCommends : List String :=
  ["AT", "AT+CWMODE=1", "AT+RST", "AT+CWJAP=\"FAST_93B0\",\"13550789085\"", "AT+CIPMUX=0"]

def linkWifi (o : Outcomes) : CallResult := sendCommands 1024 [] [] linkWifiCommends o

def getTimeCommends : List String :=
  ["AT+CIPSTART=\"TCP\",\"http://quan.suning.com\",80", "AT+CIPMODE=1", "AT+CIPSEND"]

def getTimeApi : String := "GET http://quan.suning.com/getSysTime.do\r\n"

def getTime (o : Outcomes) : CallResult :=
  let t := sendCommands 1028 [.setEndSign '\x7d']
    (List.replicate 10 (.clientSend getTimeApi)) getTimeCommends o
  { t with events := .lib (.clientSend "+++") :: t.events }

def getWeatherCommends : List String :=
  ["AT+CIPSTART=\"TCP\",\"192.168.0.104\",8086", "AT+CIPMODE=1", "AT+CIPSEND"]

def getWeatherApi : String :=
  "GET https://api.seniverse.com/v3/weather/now.json?key=Sy4GgsLmyKTO4Orj7&location=WM7JD7CXZK37" ++
    "&language=zh-Hans&unit=c\r\n"

def getWeather (o : Outcomes) : CallResult :=
  let t := sendCommands 1028 []
    (.setEndSign '\x7d' :: List.replicate 5 (.clientSend getWeatherApi))
    getWeatherCommends o
  { t with events := .lib (.clientSend "+++") :: t.events }

/-! ## Runs of the application -/

/-- One call of the application, with what the library will answer. -/
inductive AppCall where
  | tcpSendAt (commend : String) (structBuff : ℕ) (o : SendOutcome)
  | linkWifi (o : Outcomes)
  | getTime (o : Outcomes)
  | getWeather (o : Outcomes)

def AppCall.exec : AppCall → CallResult
  | tcpSendAt commend structBuff o =>
    let r := At.tcpSendAt commend structBuff o
    { events := [.sent r], ret := r.ret }
  | linkWifi o => At.linkWifi o
  | getTime o => At.getTime o
  | getWeather o => At.getWeather o

/-- The calls that are made and their results: those up to the first that never returns. -/
def runCalls : List AppCall → List (AppCall × CallResult)
  | [] => []
  | c :: cs =>
    let r := c.exec
    (c, r) :: if r.ret.isSome then runCalls cs else []

end Stm32Board.At
