import Stm32Board.At.Client
import Stm32Board.At.Contract

/-!
# The lines of a response

Reading bytes, the client stores the lines of the response one after another and nothing else
(`foldl_clientRx_resp`), and as long as they fit the buffer holds exactly these lines
(`holds_foldl_storeLine`). `tcpSendAt_success_iff` says when a `TCP_send_AT` that is answered with
such a response stays inside its array of 100 characters and comes to the end of its loop.
-/

namespace Stm32Board.At

open Common

/-! ## The lines that come in -/

/-- The line of the response that a byte completes. -/
def responseLine (c : AtClient) (ch : UInt8) : Option (List UInt8) :=
  if c.waiting then (atRecvReadline c ch).2.filter fun line => (getUrcObj c.urcTable line).isNone
  else none

/-- The lines of the response among the bytes that come in. -/
def responseLines : AtClient → List UInt8 → List (List UInt8)
  | _, [] => []
  | c, ch :: bytes => (responseLine c ch).toList ++ responseLines (clientRx c ch) bytes

/-- The lines of the response that `TCP_send_AT` goes on with. -/
def sendLines (c : AtClient) (structBuff : ℕ) (first second : List UInt8) : List (List UInt8) :=
  let t := lastTry c structBuff first second
  responseLines t.1.sent t.2

/-- The lines as they are stored. -/
def storedLines (lines : List (List UInt8)) : List UInt8 := (lines.map terminate).flatten

/-- What a line of the response does to the response object. -/
def AtResponse.storeLine (r : AtResponse) (line : List UInt8) : AtResponse :=
  if r.bufLen + (terminate line).length < r.bufSize then r.copyLine (terminate line) else r

/-- Reading touches neither the response object nor what the client does with a line. -/
theorem atRecvReadline_frame (c : AtClient) (ch : UInt8) :
    (atRecvReadline c ch).1.resp = c.resp ∧ (atRecvReadline c ch).1.waiting = c.waiting ∧
      (atRecvReadline c ch).1.urcTable = c.urcTable := by
  rw [atRecvReadline]
  split_ifs <;> exact ⟨rfl, rfl, rfl⟩

/-- Storing a line is a matter of the response. -/
theorem AtClient.storeLine_resp (c : AtClient) (line : List UInt8) :
    (c.storeLine (terminate line)).resp = c.resp.storeLine line := by
  rw [storeLine, AtResponse.storeLine]
  split_ifs <;> rfl

/-- Looking for the final result leaves it alone. -/
theorem AtClient.checkResult_resp (c : AtClient) (line : List UInt8) :
    (c.checkResult line).resp = c.resp := by
  rw [checkResult]
  split_ifs <;> rfl

/-- While a command waits, a line that is no URC is stored. -/
theorem clientParser_resp (c : AtClient) (line : List UInt8) :
    (clientParser c line).resp =
      if c.waiting ∧ (getUrcObj c.urcTable line).isNone then c.resp.storeLine line
      else c.resp := by
  rw [clientParser]
  cases getUrcObj c.urcTable line with
  | some urc => simp
  | none =>
    by_cases hwaiting : c.waiting
    · simp only [hwaiting, if_true, true_and, Option.isNone_none]
      rw [AtClient.checkResult_resp, AtClient.storeLine_resp]
    · simp [hwaiting]

/-- A byte that ends no such line stores nothing. -/
theorem clientRx_resp (c : AtClient) (ch : UInt8) :
    (clientRx c ch).resp = (responseLine c ch).elim c.resp c.resp.storeLine := by
  obtain ⟨hresp, hwaiting, hurc⟩ := atRecvReadline_frame c ch
  rw [clientRx, responseLine]
  generalize atRecvReadline c ch = p at hresp hwaiting hurc ⊢
  obtain ⟨c', _ | line⟩ := p
  · dsimp only at hresp
    split_ifs <;> exact hresp
  · dsimp only at hresp hwaiting hurc ⊢
    rw [clientParser_resp, hresp, hwaiting, hurc]
    by_cases h : c.waiting <;> by_cases h' : (getUrcObj c.urcTable line).isNone <;>
      simp [h, h', Option.filter]

/-- What the client does to the response object: it stores the lines of the response in turn. -/
theorem foldl_clientRx_resp (c : AtClient) (bytes : List UInt8) :
    (bytes.foldl clientRx c).resp =
      (responseLines c bytes).foldl AtResponse.storeLine c.resp := by
  induction bytes generalizing c with
  | nil => rfl
  | cons ch bytes ih =>
    rw [List.foldl_cons, ih, clientRx_resp, responseLines, List.foldl_append]
    cases responseLine c ch <;> rfl

/-! ## The buffer -/

/-- The buffer starts with these lines as they are stored, and they are counted. -/
structure AtResponse.Holds (r : AtResponse) (lines : List (List UInt8)) : Prop where
  buf_eq : r.buf = storedLines lines ++ r.buf.drop r.bufLen
  bufLen_eq : r.bufLen = (storedLines lines).length
  lineCounts_eq : r.lineCounts = lines.length

/-- Lines are stored one behind the other. -/
theorem storedLines_append (lines more : List (List UInt8)) :
    storedLines (lines ++ more) = storedLines lines ++ storedLines more := by
  rw [storedLines, storedLines, storedLines, List.map_append, List.flatten_append]

/-- Each of them ends with a zero in place of its last byte. -/
theorem storedLines_cons (line : List UInt8) (lines : List (List UInt8)) :
    storedLines (line :: lines) = line.dropLast ++ 0 :: storedLines lines := by
  rw [storedLines, storedLines, List.map_cons, List.flatten_cons, terminate, List.append_assoc,
    List.singleton_append]

/-- The buffer does not grow. -/
theorem AtResponse.storeLine_bufSize (r : AtResponse) (line : List UInt8) :
    (r.storeLine line).bufSize = r.bufSize := by
  rw [storeLine]
  split_ifs with hfits
  · rw [bufSize] at hfits
    simp only [bufSize, copyLine, List.length_append, List.length_take, List.length_drop]
    omega
  · rfl

/-- However many lines are stored. -/
theorem foldl_storeLine_bufSize (lines : List (List UInt8)) (r : AtResponse) :
    (lines.foldl AtResponse.storeLine r).bufSize = r.bufSize := by
  induction lines generalizing r with
  | nil => rfl
  | cons line lines ih => rw [List.foldl_cons, ih, AtResponse.storeLine_bufSize]

section Holds

variable {r : AtResponse} {lines : List (List UInt8)}

/-- A line that fits is stored behind the others. -/
theorem AtResponse.Holds.storeLine (h : r.Holds lines) {line : List UInt8}
    (hfits : (storedLines (lines ++ [line])).length < r.bufSize) :
    (r.storeLine line).Holds (lines ++ [line]) := by
  have hline : storedLines [line] = terminate line := List.append_nil _
  have hlen : (storedLines (lines ++ [line])).length = r.bufLen + (terminate line).length := by
    rw [storedLines_append, hline, List.length_append, h.bufLen_eq]
  have hbuf : r.buf.take r.bufLen ++ terminate line = storedLines (lines ++ [line]) := by
    rw [storedLines_append, hline]
    conv_lhs => rw [h.buf_eq]
    rw [List.take_left' h.bufLen_eq.symm]
  rw [AtResponse.storeLine, if_pos (hlen ▸ hfits)]
  refine ⟨?_, hlen.symm, ?_⟩
  · dsimp only [copyLine]
    rw [hbuf, List.drop_left' hlen]
  · rw [List.length_append, List.length_singleton, ← h.lineCounts_eq]
    rfl

/-- As long as they fit, all lines are kept in order. -/
theorem AtResponse.Holds.foldl_storeLine (h : r.Holds lines) {more : List (List UInt8)}
    (hfits : (storedLines (lines ++ more)).length < r.bufSize) :
    (more.foldl AtResponse.storeLine r).Holds (lines ++ more) := by
  induction more generalizing r lines with
  | nil =>
    rw [List.append_nil]
    exact h
  | cons line more ih =>
    rw [List.append_cons] at hfits ⊢
    have hline : (storedLines (lines ++ [line])).length < r.bufSize := by
      rw [storedLines_append, List.length_append] at hfits
      omega
    exact ih (h.storeLine hline) ((r.storeLine_bufSize line).symm ▸ hfits)

/-- `%s` gets the first word of the first line, whatever is stored after it. -/
theorem AtResponse.Holds.scanWord_buf {line : List UInt8} (h : r.Holds (line :: lines)) :
    scanWord r.buf = scanWord line.dropLast := by
  rw [scanWord, h.buf_eq, storedLines_cons, List.append_assoc, List.cons_append,
    cString_append_zero]
  rfl

/-- When no line has a zero byte inside, `at_resp_get_line` finds each of them. -/
theorem AtResponse.Holds.atRespGetLine_eq (h : r.Holds lines)
    (hlines : ∀ line ∈ lines, 0 ∉ line.dropLast) {k : ℕ} (hk : k < lines.length) :
    (atRespGetLine r (k + 1)).map cString = some lines[k].dropLast := by
  have hstored : storedLines lines = ((lines.map List.dropLast).map (· ++ [0])).flatten := by
    rw [List.map_map]
    rfl
  have hfree : ∀ s ∈ lines.map List.dropLast, 0 ∉ s := by
    simpa only [List.forall_mem_map] using hlines
  rw [atRespGetLine, if_neg (by rw [h.lineCounts_eq]; omega), Option.map_some,
    Nat.add_sub_cancel, h.buf_eq, hstored,
    iterate_nextCString hfree _ k (by rw [List.length_map]; omega)]
  rw [List.drop_eq_getElem_cons (by rwa [List.length_map]), List.map_cons, List.flatten_cons,
    List.append_assoc, List.append_assoc, List.singleton_append, cString_append_zero,
    List.getElem_map, cString_of_notMem (hlines _ (List.getElem_mem hk))]

/-- `at_resp_get_line` finds each line that is held, from its start to its zero. -/
theorem AtResponse.Holds.map_atRespGetLine (h : r.Holds lines)
    (hlines : ∀ line ∈ lines, 0 ∉ line.dropLast) :
    (List.range r.lineCounts).map (fun k => (atRespGetLine r (k + 1)).map cString) =
      lines.map fun line => some line.dropLast := by
  refine List.ext_getElem (by simp [h.lineCounts_eq]) fun k _ hk => ?_
  rw [List.getElem_map, List.getElem_map, List.getElem_range]
  exact h.atRespGetLine_eq hlines (by rwa [List.length_map] at hk)

end Holds

/-! ## The tries of a command -/

/-- The response after the command is the one the bytes have left. -/
theorem atObjExecCmd_resp {c : AtClient} (hcli : ¬c.cli) (bytes : List UInt8) :
    (atObjExecCmd c bytes).1.resp = (bytes.foldl clientRx c.sent).resp := by
  rw [atObjExecCmd, if_neg hcli]
  dsimp only
  split_ifs <;> rfl

/-- The command does not resize its response. -/
theorem atObjExecCmd_bufSize (c : AtClient) (bytes : List UInt8) :
    (atObjExecCmd c bytes).1.resp.bufSize = c.resp.bufSize := by
  by_cases hcli : c.cli
  · rw [atObjExecCmd, if_pos hcli]
  · rw [atObjExecCmd_resp hcli, foldl_clientRx_resp, foldl_storeLine_bufSize]
    rfl

/-- Nor do two of them. -/
theorem lastTry_bufSize (c : AtClient) (structBuff : ℕ) (first second : List UInt8) :
    (lastTry c structBuff first second).1.resp.bufSize = structBuff := by
  have hcreate : (atCreateResp structBuff 0).bufSize = structBuff := List.length_replicate
  rw [lastTry]
  split_ifs
  · rw [atObjExecCmd_bufSize, hcreate]
  · exact hcreate

section Answered

variable {c : AtClient} {structBuff : ℕ} {id : RespId} {first second : List UInt8}

/-- The try that `TCP_send_AT` goes on with was not refused. -/
theorem lastTry_not_cli (h : (sendOutcome c id structBuff first second).Answered) :
    ¬(lastTry c structBuff first second).1.cli := by
  have hbusy : -rtEbusy < 0 := by decide
  intro hcli
  rw [lastTry] at hcli
  split_ifs at hcli with hexec
  · have hsecond : (sendOutcome c id structBuff first second).execAgain < 0 := by
      rw [sendOutcome]
      dsimp only
      rw [atObjExecCmd, if_pos hcli]
      exact hbusy
    rcases h.1 with hfirst | hsecond'
    · exact absurd hexec (Int.not_lt.mpr hfirst)
    · exact absurd hsecond (Int.not_lt.mpr hsecond')
  · rw [atObjExecCmd, if_pos hcli] at hexec
    exact hexec hbusy

/-- A response that fits is in the buffer when `TCP_send_AT` goes on. -/
theorem holds_sendResponse (h : (sendOutcome c id structBuff first second).Answered)
    (hfits : (storedLines (sendLines c structBuff first second)).length < structBuff) :
    (sendResponse c structBuff first second).Holds (sendLines c structBuff first second) := by
  have hstart : (lastTry c structBuff first second).1.sent.resp.Holds [] := ⟨rfl, rfl, rfl⟩
  have hsize : (lastTry c structBuff first second).1.sent.resp.bufSize = structBuff :=
    lastTry_bufSize c structBuff first second
  rw [sendResponse, atObjExecCmd_resp (lastTry_not_cli h), foldl_clientRx_resp]
  exact hstart.foldl_storeLine (hsize.symm ▸ hfits)

end Answered

/-! ## The success path -/

/-- A line that is printed, with the response it is taken from. -/
def AtOp.shown : AtOp → Option (RespId × ℕ)
  | .getLine resp line => some (resp, line)
  | _ => none

/-- The success path of `TCP_send_AT` when the server sends `first` during its first try and
`second` during the second one: `at_receive` is not overrun, the loop ends after the lines, once
each in order, and what it prints are the lines that came in. -/
structure SuccessPath (c : AtClient) (commend : String) (structBuff : ℕ) (id : RespId)
    (first second : List UInt8) : Prop where
  stores_le : (atRespParseLineArgs (sendResponse c structBuff first second) 1).2.length ≤ 100
  returns :
    (tcpSendAt commend structBuff (sendOutcome c id structBuff first second)).ret = some rtEok
  shows :
    (tcpSendAt commend structBuff (sendOutcome c id structBuff first second)).ops.filterMap
        AtOp.shown =
      (List.range (sendResponse c structBuff first second).lineCounts).map fun k => (id, k + 1)
  prints : (∀ line ∈ sendLines c structBuff first second, 0 ∉ line.dropLast) →
    (List.range (sendResponse c structBuff first second).lineCounts).map (fun k =>
        (atRespGetLine (sendResponse c structBuff first second) (k + 1)).map cString) =
      (sendLines c structBuff first second).map fun line => some line.dropLast

/-- What the parse of the first line stores, when it finds a word. -/
theorem atRespParseLineArgs_one {r : AtResponse} (h : 0 < (atRespParseLineArgs r 1).1) :
    0 < r.lineCounts ∧ (atRespParseLineArgs r 1).2 = scanWord r.buf ++ [0] := by
  rw [atRespParseLineArgs, atRespGetLine] at h ⊢
  by_cases hline : 1 > r.lineCounts ∨ 1 ≤ 0
  · rw [if_pos hline] at h
    exact absurd h (by decide)
  · rw [if_neg hline] at h ⊢
    by_cases hword : scanWord r.buf = []
    · simp [hword] at h
    · exact ⟨by omega, by simp [hword]⟩

/-- On success each line is shown once. -/
theorem tcpSendAt_shown {o : SendOutcome} {resp : RespId} (hcreated : o.created = some resp)
    (h : o.Succeeds) (commend : String) (structBuff : ℕ) :
    (tcpSendAt commend structBuff o).ops.filterMap AtOp.shown =
      (List.range o.lineCounts).map fun k => (resp, k + 1) := by
  obtain ⟨-, ⟨htry, hparsed⟩, hlines⟩ := h
  have hretry : (if o.exec < 0 then [AtOp.execCmd resp commend] else []).filterMap AtOp.shown
      = [] := by
    split_ifs <;> rfl
  have hshow : ((List.range o.lineCounts).map fun k => AtOp.getLine resp (k + 1)).filterMap
      AtOp.shown = (List.range o.lineCounts).map fun k => (resp, k + 1) := by
    rw [List.filterMap_map]
    exact congrFun List.filterMap_eq_map' _
  rw [tcpSendAt, hcreated]
  dsimp only
  rw [if_neg (by omega), if_neg (by omega), showLines_eq, if_pos hlines, ← List.map_eq_flatMap]
  dsimp only
  rw [List.filterMap_append, List.filterMap_append, List.filterMap_append, List.filterMap_append,
    hretry, hshow]
  exact List.append_nil _

/-- When a command is answered with a response that fits its buffer, the success path stays inside
the array and ends exactly when the first line starts with a word of at most 99 characters and there
are fewer lines than the 8-bit counter can pass. -/
theorem tcpSendAt_success_iff (c : AtClient) (commend : String) (structBuff : ℕ) (id : RespId)
    (first second : List UInt8)
    (hanswered : (sendOutcome c id structBuff first second).Answered)
    (hfits : (storedLines (sendLines c structBuff first second)).length < structBuff) :
    SuccessPath c commend structBuff id first second ↔
      (scanWord ((sendLines c structBuff first second).headD []).dropLast).length < 100 ∧
        (sendLines c structBuff first second).length < 255 := by
  have hholds := holds_sendResponse hanswered hfits
  have hcount := hholds.lineCounts_eq
  have hret :=
    (tcpSendAt_cases commend structBuff (sendOutcome c id structBuff first second)).ret_ok_iff
  obtain ⟨hpos, hstores⟩ := atRespParseLineArgs_one hanswered.2
  have hlen : (atRespParseLineArgs (sendResponse c structBuff first second) 1).2.length =
      (scanWord ((sendLines c structBuff first second).headD []).dropLast).length + 1 := by
    rw [hstores, List.length_append, List.length_singleton]
    generalize sendLines c structBuff first second = lines at hholds hcount
    cases lines with
    | nil => exact absurd hcount (Nat.ne_of_gt hpos)
    | cons line lines => rw [hholds.scanWord_buf, List.headD_cons]
  constructor
  · intro h
    have hle := h.stores_le
    have hlines := (hret.mp h.returns).2.2
    exact ⟨by omega, hcount ▸ hlines⟩
  · rintro ⟨hword, hlines⟩
    have hsucceeds : (sendOutcome c id structBuff first second).Succeeds :=
      ⟨rfl, hanswered, hcount.trans_lt hlines⟩
    exact ⟨by omega, hret.mpr hsucceeds, tcpSendAt_shown rfl hsucceeds commend structBuff,
      hholds.map_atRespGetLine⟩

/-- Three lines before the one that ends the response: a word and its rest, an empty one and a number. -/
def threeLines : List UInt8 :=
  "+CIPSTATUS TCP".toUTF8.toList ++ [0x0D, 0x0A] ++ [0x0D, 0x0A] ++ "42".toUTF8.toList ++ [0x0D, 0x0A]

/-- The server is silent in the first try, and answers the second one. -/
theorem successPath_threeLines :
    SuccessPath tcpClient "AT+CIPSTATUS" 1024 0 [] (threeLines ++ okLine) :=
  (tcpSendAt_success_iff tcpClient "AT+CIPSTATUS" 1024 0 [] (threeLines ++ okLine)
    ⟨by decide +kernel, by decide +kernel⟩ (by decide +kernel)).mpr
    ⟨by decide +kernel, by decide +kernel⟩

/-- A word of 100 characters in the first line of a response that fits: with the zero byte, 101 of
them are stored. -/
theorem not_successPath_long_word :
    let bytes := List.replicate 100 0x41 ++ [0x0D, 0x0A] ++ okLine
    (sendOutcome tcpClient 0 1024 bytes []).Answered ∧
      (storedLines (sendLines tcpClient 1024 bytes [])).length < 1024 ∧
      ¬SuccessPath tcpClient "AT" 1024 0 bytes [] := by
  refine ⟨⟨by decide +kernel, by decide +kernel⟩, by decide +kernel, fun h => ?_⟩
  exact absurd h.stores_le (by decide +kernel)

end Stm32Board.At
