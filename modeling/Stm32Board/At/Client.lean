import Stm32Board.At.Defs
import Stm32Board.Common.CString
import Mathlib.Data.List.Infix

/-!
# The AT client of the library

Reference: `components/net/at/src/at_client.c`.

The parser thread takes the bytes of the server one by one. `at_recv_readline` cuts them into lines,
and `client_parser` copies the lines of a response into the buffer of the response object, the last
byte of each replaced by a zero byte, until a line ends the response. The waits of `at_obj_exec_cmd`
are the bytes that come in before it stops waiting; the functions of a matching URC only print.
-/

namespace Stm32Board.At

open Common

def rtError : ℤ := 1
def rtEtimeout : ℤ := 2
def rtEbusy : ℤ := 7

/-- `struct at_response`; `buf_size` is the length of the buffer. -/
structure AtResponse where
  buf : List UInt8
  bufLen : ℕ
  lineNum : ℕ
  lineCounts : ℕ
deriving DecidableEq, Repr

def AtResponse.bufSize (r : AtResponse) : ℕ := r.buf.length

/-- `at_create_resp`, when there is memory. -/
def atCreateResp (bufSize lineNum : ℕ) : AtResponse :=
  { buf := List.replicate bufSize 0, bufLen := 0, lineNum := lineNum, lineCounts := 0 }

/-- The walk over the lines stored before the one asked for; `none` is the null pointer. -/
def atRespGetLine (r : AtResponse) (respLine : ℕ) : Option (List UInt8) :=
  if respLine > r.lineCounts ∨ respLine ≤ 0 then none
  else some (nextCString^[respLine - 1] r.buf)

/-- `isspace`. -/
def isSpace (ch : UInt8) : Bool := ch = 0x20 || 0x09 ≤ ch && ch ≤ 0x0D

/-- What `%s` matches in a string: its first word. -/
def scanWord (s : List UInt8) : List UInt8 :=
  ((cString s).dropWhile isSpace).takeWhile fun ch => !isSpace ch

/-- `at_resp_parse_line_args` with `"%s\n"`: its result, and the characters stored. -/
def atRespParseLineArgs (r : AtResponse) (respLine : ℕ) : ℤ × List UInt8 :=
  match atRespGetLine r respLine with
  | none => (-1, [])
  | some s => if scanWord s = [] then (-1, []) else (1, scanWord s ++ [0])

/-! ## The client -/

structure AtUrc where
  cmdPrefix : List UInt8
  cmdSuffix : List UInt8
deriving DecidableEq, Repr

inductive AtRespStatus where
  | ok
  | error
  | timeout
  | buffFull
deriving DecidableEq, Repr

/-- `struct at_client` with the locals of `at_recv_readline`. `cli` says whether `status` is
`AT_STATUS_CLI`, `waiting` whether `resp` is not the null pointer. -/
structure AtClient where
  cli : Bool
  endSign : UInt8
  recvBufsz : ℕ
  urcTable : List AtUrc
  recvLineBuf : List UInt8
  lastCh : UInt8
  isFull : Bool
  resp : AtResponse
  waiting : Bool
  respStatus : AtRespStatus
deriving DecidableEq, Repr

def getUrcObj (urcTable : List AtUrc) (buffer : List UInt8) : Option AtUrc :=
  urcTable.find? fun urc =>
    decide (urc.cmdPrefix.length + urc.cmdSuffix.length ≤ buffer.length) &&
      urc.cmdPrefix.isPrefixOf buffer && urc.cmdSuffix.isSuffixOf buffer

/-- One round of `at_recv_readline`, with the line it returns, if it returns one. -/
def atRecvReadline (c : AtClient) (ch : UInt8) : AtClient × Option (List UInt8) :=
  let c :=
    if c.recvLineBuf.length < c.recvBufsz then { c with recvLineBuf := c.recvLineBuf ++ [ch] }
    else { c with isFull := true }
  if ch = 0x0A ∧ c.lastCh = 0x0D ∨ c.endSign ≠ 0 ∧ ch = c.endSign ∨
      (getUrcObj c.urcTable c.recvLineBuf).isSome then
    ({ c with recvLineBuf := [], lastCh := 0, isFull := false },
      if c.isFull then none else some c.recvLineBuf)
  else ({ c with lastCh := ch }, none)

def atRespEndOk : List UInt8 := [0x4F, 0x4B]
def atRespEndError : List UInt8 := [0x45, 0x52, 0x52, 0x4F, 0x52]
def atRespEndFail : List UInt8 := [0x46, 0x41, 0x49, 0x4C]

/-- `client->recv_line_buf[client->recv_line_len - 1] = '\0'`. -/
def terminate (line : List UInt8) : List UInt8 := line.dropLast ++ [0]

/-- The copy of a line behind the ones stored. -/
def AtResponse.copyLine (r : AtResponse) (line : List UInt8) : AtResponse :=
  { r with
    buf := r.buf.take r.bufLen ++ line ++ r.buf.drop (r.bufLen + line.length)
    bufLen := r.bufLen + line.length
    lineCounts := r.lineCounts + 1 }

/-- The line is stored if it fits. -/
def AtClient.storeLine (c : AtClient) (line : List UInt8) : AtClient :=
  if c.resp.bufLen + line.length < c.resp.bufSize then { c with resp := c.resp.copyLine line }
  else { c with respStatus := .buffFull }

/-- `check response result`: the line ends the response, or the client goes on. -/
def AtClient.checkResult (c : AtClient) (line : List UInt8) : AtClient :=
  if atRespEndOk.isPrefixOf line ∧ c.resp.lineNum = 0 then
    { c with waiting := false, respStatus := .ok }
  else if atRespEndError <:+: cString line ∨ atRespEndFail.isPrefixOf line then
    { c with waiting := false, respStatus := .error }
  else if c.resp.lineCounts = c.resp.lineNum ∧ c.resp.lineNum ≠ 0 then
    { c with waiting := false, respStatus := .ok }
  else c

/-- One round of `client_parser` with the line read. -/
def clientParser (c : AtClient) (line : List UInt8) : AtClient :=
  match getUrcObj c.urcTable line with
  | some _ => c
  | none =>
    if c.waiting then (c.storeLine (terminate line)).checkResult (terminate line) else c

/-- A byte comes in. -/
def clientRx (c : AtClient) (ch : UInt8) : AtClient :=
  match atRecvReadline c ch with
  | (c, none) => c
  | (c, some line) => clientParser c line

/-- The client once a command is sent. -/
def AtClient.sent (c : AtClient) : AtClient :=
  { c with respStatus := .ok, waiting := true,
           resp := { c.resp with bufLen := 0, lineCounts := 0 } }

/-- `at_obj_exec_cmd` with the bytes that come in while it waits. -/
def atObjExecCmd (c : AtClient) (bytes : List UInt8) : AtClient × ℤ :=
  if c.cli then (c, -rtEbusy)
  else
    let c := bytes.foldl clientRx c.sent
    if c.waiting then ({ c with waiting := false, respStatus := .timeout }, -rtEtimeout)
    else if c.respStatus ≠ .ok then (c, -rtError)
    else (c, rtEok)

/-! ## What `TCP_send_AT` gets from the library -/

/-- `urc_table` of the application: the lines that start with `{"sysTime2` or `{"results":` and end
with `}`. -/
def urcTable : List AtUrc :=
  [ { cmdPrefix := [0x7B, 0x22, 0x73, 0x79, 0x73, 0x54, 0x69, 0x6D, 0x65, 0x32]
      cmdSuffix := [0x7D] },
    { cmdPrefix := [0x7B, 0x22, 0x72, 0x65, 0x73, 0x75, 0x6C, 0x74, 0x73, 0x22, 0x3A]
      cmdSuffix := [0x7D] } ]

/-- The client after `TCP_client_init`. -/
def tcpClient : AtClient :=
  { cli := false, endSign := 0, recvBufsz := 256, urcTable := urcTable, recvLineBuf := [],
    lastCh := 0, isFull := false, resp := atCreateResp 0 0, waiting := false, respStatus := .ok }

/-- The line `OK`. -/
def okLine : List UInt8 := atRespEndOk ++ [0x0D, 0x0A]

/-- The client and the bytes of the try that `TCP_send_AT` goes on with: the second one, when the
first one fails. -/
def lastTry (c : AtClient) (structBuff : ℕ) (first second : List UInt8) :
    AtClient × List UInt8 :=
  let c := { c with resp := atCreateResp structBuff 0 }
  if (atObjExecCmd c first).2 < 0 then ((atObjExecCmd c first).1, second) else (c, first)

/-- The response object after the tries. -/
def sendResponse (c : AtClient) (structBuff : ℕ) (first second : List UInt8) : AtResponse :=
  let t := lastTry c structBuff first second
  (atObjExecCmd t.1 t.2).1.resp

/-- The answers `TCP_send_AT` gets when the server sends `first` during its first try and `second`
during the second one. -/
def sendOutcome (c : AtClient) (id : RespId) (structBuff : ℕ) (first second : List UInt8) :
    SendOutcome :=
  let c₀ := { c with resp := atCreateResp structBuff 0 }
  let r := sendResponse c structBuff first second
  { created := some id
    exec := (atObjExecCmd c₀ first).2
    execAgain := (atObjExecCmd (atObjExecCmd c₀ first).1 second).2
    parsed := (atRespParseLineArgs r 1).1
    lineCounts := r.lineCounts }

end Stm32Board.At
