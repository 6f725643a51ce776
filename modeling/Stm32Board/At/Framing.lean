import Stm32Board.At.Response

/-!
# Lines on the wire

`at_recv_readline` cuts the bytes of the server into segments, each ended by CR LF, by the end sign or
by a match of a URC, and returns those that fit its buffer; a longer one is dropped as a whole, and the
next one is read as if it had not been there (`readLines_spec`). On top of it stands the command and
its response: how `at_obj_exec_cmd` ends is decided by the first final line (`atObjExecCmd_cut`), and
the lines of a response that fits come back as they were sent (`atObjExecCmd_roundTrip`).
-/

namespace Stm32Board.At

open Common

/-! ## Segments of the stream -/

/-- The lines `at_recv_readline` returns, call after call. -/
def readLines : AtClient → List UInt8 → List (List UInt8)
  | _, [] => []
  | c, ch :: bytes => (atRecvReadline c ch).2.toList ++ readLines (atRecvReadline c ch).1 bytes

/-- The bytes read since the last line end a line. -/
def AtClient.Ends (c : AtClient) (seg : List UInt8) : Prop :=
  ∃ init ch, seg = init ++ [ch] ∧
    (ch = 0x0A ∧ init.getLast? = some 0x0D ∨ c.endSign ≠ 0 ∧ ch = c.endSign ∨
      (getUrcObj c.urcTable (seg.take c.recvBufsz)).isSome)

/-- A piece of the stream that ends a line, and does so only at its end. -/
structure AtClient.Segment (c : AtClient) (seg : List UInt8) : Prop where
  ends : c.Ends seg
  first : ∀ p, p <+: seg → c.Ends p → p = seg

/-- The state of the reader after the bytes `s` of a line. -/
structure AtClient.Reading (c : AtClient) (s : List UInt8) : Prop where
  recvLineBuf_eq : c.recvLineBuf = s.take c.recvBufsz
  lastCh_eq : c.lastCh = s.getLast?.getD 0
  isFull_eq : c.isFull = decide (c.recvBufsz < s.length)

/-- What decides how lines are cut. -/
structure SameFraming (c c' : AtClient) : Prop where
  endSign_eq : c'.endSign = c.endSign
  recvBufsz_eq : c'.recvBufsz = c.recvBufsz
  urcTable_eq : c'.urcTable = c.urcTable

/-- Where a line ends is a matter of the settings. -/
theorem SameFraming.ends_iff {c c' : AtClient} (h : SameFraming c c') (seg : List UInt8) :
    c'.Ends seg ↔ c.Ends seg := by
  unfold AtClient.Ends
  rw [h.endSign_eq, h.recvBufsz_eq, h.urcTable_eq]

/-- Settings that stay the same twice stay the same. -/
theorem SameFraming.trans {c c' c'' : AtClient} (h : SameFraming c c') (h' : SameFraming c' c'') :
    SameFraming c c'' :=
  ⟨h'.endSign_eq.trans h.endSign_eq, h'.recvBufsz_eq.trans h.recvBufsz_eq,
    h'.urcTable_eq.trans h.urcTable_eq⟩

/-- So is what a segment is. -/
theorem SameFraming.segment {c c' : AtClient} (h : SameFraming c c') {seg : List UInt8}
    (hseg : c.Segment seg) : c'.Segment seg :=
  ⟨(h.ends_iff seg).mpr hseg.ends, fun p hp hends => hseg.first p hp ((h.ends_iff p).mp hends)⟩

/-- Reading a byte changes no setting. -/
theorem atRecvReadline_sameFraming (c : AtClient) (ch : UInt8) :
    SameFraming c (atRecvReadline c ch).1 := by
  rw [atRecvReadline]
  split_ifs <;> exact ⟨rfl, rfl, rfl⟩

/-- No line ends before its first byte. -/
theorem not_ends_nil (c : AtClient) : ¬c.Ends [] := by
  rintro ⟨init, ch, h, -⟩
  exact absurd h (by simp)

/-- One more byte in the buffer, unless it is full. -/
theorem take_append_singleton (s : List UInt8) (ch : UInt8) (n : ℕ) :
    (s ++ [ch]).take n = if (s.take n).length < n then s.take n ++ [ch] else s.take n := by
  rw [List.length_take]
  split_ifs with h
  · have hlen : s.length < n := by omega
    rw [List.take_of_length_le (l := s) (by omega), List.take_of_length_le]
    rw [List.length_append, List.length_singleton]
    omega
  · rw [List.take_append_of_le_length (by omega)]

/-- The bytes as the reader has them when it looks whether the line ends. -/
theorem ends_append_singleton {c : AtClient} {s : List UInt8} (h : c.Reading s) (ch : UInt8) :
    c.Ends (s ++ [ch]) ↔
      ch = 0x0A ∧ c.lastCh = 0x0D ∨ c.endSign ≠ 0 ∧ ch = c.endSign ∨
        (getUrcObj c.urcTable ((s ++ [ch]).take c.recvBufsz)).isSome := by
  have hlast : s.getLast? = some 0x0D ↔ c.lastCh = 0x0D := by
    rw [h.lastCh_eq]
    cases s.getLast? with
    | none => simp
    | some last => simp
  unfold AtClient.Ends
  constructor
  · rintro ⟨init, last, heq, hends⟩
    obtain ⟨rfl, hch⟩ := List.append_inj' heq rfl
    obtain rfl : ch = last := by simpa using hch
    rwa [hlast] at hends
  · intro hends
    rw [← hlast] at hends
    exact ⟨s, ch, rfl, hends⟩

/-- The byte in the line buffer, if there is room. -/
def AtClient.putChar (c : AtClient) (ch : UInt8) : AtClient :=
  if c.recvLineBuf.length < c.recvBufsz then { c with recvLineBuf := c.recvLineBuf ++ [ch] }
  else { c with isFull := true }

theorem putChar_sameFraming (c : AtClient) (ch : UInt8) :
    SameFraming c (c.putChar ch) ∧ (c.putChar ch).lastCh = c.lastCh := by
  unfold AtClient.putChar
  split_ifs <;> exact ⟨⟨rfl, rfl, rfl⟩, rfl⟩

/-- The buffer holds the front of the line, and the flag says whether there is more of it. -/
theorem putChar_reading {c : AtClient} {s : List UInt8} (h : c.Reading s) (ch : UInt8) :
    (c.putChar ch).recvLineBuf = (s ++ [ch]).take c.recvBufsz ∧
      (c.putChar ch).isFull = decide (c.recvBufsz < (s ++ [ch]).length) := by
  have hlen : (s ++ [ch]).length = s.length + 1 := by
    rw [List.length_append, List.length_singleton]
  unfold AtClient.putChar
  rw [h.recvLineBuf_eq, take_append_singleton, hlen]
  have htake := List.length_take (i := c.recvBufsz) (l := s)
  split_ifs
  · refine ⟨rfl, ?_⟩
    dsimp only
    rw [h.isFull_eq]
    exact decide_eq_decide.mpr (by omega)
  · exact ⟨rfl, (decide_eq_true (by omega)).symm⟩

/-- A byte is stored, and the line is given out if it ends there. -/
theorem atRecvReadline_eq (c : AtClient) (ch : UInt8) :
    atRecvReadline c ch =
      if ch = 0x0A ∧ (c.putChar ch).lastCh = 0x0D ∨
          (c.putChar ch).endSign ≠ 0 ∧ ch = (c.putChar ch).endSign ∨
          (getUrcObj (c.putChar ch).urcTable (c.putChar ch).recvLineBuf).isSome then
        ({ c.putChar ch with recvLineBuf := [], lastCh := 0, isFull := false },
          if (c.putChar ch).isFull then none else some (c.putChar ch).recvLineBuf)
      else ({ c.putChar ch with lastCh := ch }, none) := rfl

/-- A byte comes in: the line is over, and returned if the buffer has all of it, or it goes on. -/
theorem atRecvReadline_step {c : AtClient} {s : List UInt8} (h : c.Reading s) (ch : UInt8) :
    (c.Ends (s ++ [ch]) → (atRecvReadline c ch).1.Reading [] ∧
      (atRecvReadline c ch).2 =
        if (s ++ [ch]).length ≤ c.recvBufsz then some (s ++ [ch]) else none) ∧
    (¬c.Ends (s ++ [ch]) → (atRecvReadline c ch).1.Reading (s ++ [ch]) ∧
      (atRecvReadline c ch).2 = none) := by
  obtain ⟨hbuf, hfull⟩ := putChar_reading h ch
  obtain ⟨⟨hsign, hsize, htable⟩, hlast⟩ := putChar_sameFraming c ch
  rw [atRecvReadline_eq, hlast, hsign, htable, hbuf, hfull, ends_append_singleton h]
  constructor
  · intro hend
    rw [if_pos hend]
    refine ⟨⟨List.take_nil.symm, rfl, (decide_eq_false (Nat.not_lt_zero _)).symm⟩, ?_⟩
    dsimp only
    by_cases hfits : (s ++ [ch]).length ≤ c.recvBufsz
    · rw [if_pos hfits, decide_eq_false (Nat.not_lt.mpr hfits), List.take_of_length_le hfits]
      rfl
    · rw [if_neg hfits, decide_eq_true (Nat.lt_of_not_le hfits)]
      rfl
  · intro hend
    rw [if_neg hend]
    refine ⟨⟨hbuf.trans (by rw [hsize]), ?_, hfull.trans (by rw [hsize])⟩, rfl⟩
    rw [List.getLast?_append, List.getLast?_singleton]
    rfl

/-- The bytes of a line up to `s`, and the rest of it. -/
theorem readLines_segment {c : AtClient} {s rest : List UInt8} (h : c.Reading s) (hrest : rest ≠ [])
    (hseg : c.Segment (s ++ rest)) (bytes : List UInt8) :
    ∃ c', SameFraming c c' ∧ c'.Reading [] ∧ readLines c (rest ++ bytes) =
      (if (s ++ rest).length ≤ c.recvBufsz then [s ++ rest] else []) ++ readLines c' bytes := by
  induction rest generalizing c s with
  | nil => exact absurd rfl hrest
  | cons ch rest ih =>
    obtain ⟨hover, hon⟩ := atRecvReadline_step h ch
    have hsame := atRecvReadline_sameFraming c ch
    rw [List.cons_append, readLines]
    by_cases hend : c.Ends (s ++ [ch])
    · obtain ⟨hreading, hline⟩ := hover hend
      have hall : s ++ [ch] = s ++ ch :: rest :=
        hseg.first _ ⟨rest, by rw [List.append_assoc, List.singleton_append]⟩ hend
      obtain rfl : rest = [] := by simpa using hall.symm
      refine ⟨_, hsame, hreading, ?_⟩
      rw [hline]
      split_ifs <;> rfl
    · obtain ⟨hreading, hline⟩ := hon hend
      have hne : rest ≠ [] := by
        rintro rfl
        exact hend hseg.ends
      have hseg' : (atRecvReadline c ch).1.Segment (s ++ [ch] ++ rest) := by
        rw [List.append_assoc, List.singleton_append]
        exact hsame.segment hseg
      obtain ⟨c', hsame', hreading', hlines⟩ := ih hreading hne hseg'
      refine ⟨c', hsame.trans hsame', hreading', ?_⟩
      rw [hline, hlines, hsame.recvBufsz_eq, List.append_assoc, List.singleton_append]
      rfl

/-- Bytes that end no line return none. -/
theorem readLines_tail {c : AtClient} {s tail : List UInt8} (h : c.Reading s)
    (htail : ∀ p, p <+: s ++ tail → ¬c.Ends p) : readLines c tail = [] := by
  induction tail generalizing c s with
  | nil => rfl
  | cons ch tail ih =>
    have hprefix : s ++ [ch] <+: s ++ ch :: tail :=
      ⟨tail, by rw [List.append_assoc, List.singleton_append]⟩
    obtain ⟨hreading, hline⟩ := (atRecvReadline_step h ch).2 (htail _ hprefix)
    have hsame := atRecvReadline_sameFraming c ch
    rw [readLines, hline]
    refine ih hreading fun p hp => ?_
    rw [hsame.ends_iff]
    exact htail p (by rwa [List.append_assoc, List.singleton_append] at hp)

/-- Segment after segment: those that fit the buffer are returned. -/
theorem readLines_segments {c : AtClient} (h : c.Reading []) {segs : List (List UInt8)}
    (hsegs : ∀ seg ∈ segs, c.Segment seg) {tail : List UInt8} (htail : ∀ p, p <+: tail → ¬c.Ends p) :
    readLines c (segs.flatten ++ tail) = segs.filter fun seg => decide (seg.length ≤ c.recvBufsz) := by
  induction segs generalizing c with
  | nil => exact readLines_tail h htail
  | cons seg segs ih =>
    obtain ⟨hseg, hrest⟩ := List.forall_mem_cons.mp hsegs
    have hne : seg ≠ [] := by
      rintro rfl
      exact not_ends_nil c hseg.ends
    obtain ⟨c', hsame, hreading, hlines⟩ := readLines_segment h hne hseg (segs.flatten ++ tail)
    rw [List.flatten_cons, List.append_assoc, hlines,
      ih hreading (fun s hs => hsame.segment (hrest s hs))
        (fun p hp hends => htail p hp ((hsame.ends_iff p).mp hends)),
      hsame.recvBufsz_eq, List.filter_cons, List.nil_append]
    by_cases hfits : seg.length ≤ c.recvBufsz
    · rw [if_pos hfits, if_pos (decide_eq_true hfits), List.singleton_append]
    · rw [if_neg hfits, if_neg (by simpa using hfits), List.nil_append]

/-- A prefix of `s ++ [ch]` is one of `s`, or all of it. -/
theorem prefix_append_singleton {p s : List UInt8} {ch : UInt8} (h : p <+: s ++ [ch]) :
    p <+: s ∨ p = s ++ [ch] := by
  rw [List.prefix_concat_iff] at h
  exact h.symm

/-- The stream falls into segments and a rest that ends no line. -/
structure AtClient.Cut (c : AtClient) (bytes : List UInt8) (segs : List (List UInt8))
    (tail : List UInt8) : Prop where
  bytes_eq : bytes = segs.flatten ++ tail
  segment : ∀ seg ∈ segs, c.Segment seg
  open_tail : ∀ p, p <+: tail → ¬c.Ends p

/-- Every byte stream can be cut into lines. -/
theorem exists_cut (c : AtClient) (bytes : List UInt8) : ∃ segs tail, c.Cut bytes segs tail := by
  suffices hgen : ∀ s : List UInt8, (∀ p, p <+: s → ¬c.Ends p) →
      ∃ segs tail, c.Cut (s ++ bytes) segs tail from
    hgen [] fun p hp => by rw [List.prefix_nil.mp hp]; exact not_ends_nil c
  induction bytes with
  | nil => exact fun s hs => ⟨[], s, List.append_nil s, fun _ h => absurd h List.not_mem_nil, hs⟩
  | cons ch bytes ih =>
    intro s hs
    by_cases hend : c.Ends (s ++ [ch])
    · obtain ⟨segs, tail, heq, hsegs, htail⟩ := ih [] fun p hp => by
        rw [List.prefix_nil.mp hp]
        exact not_ends_nil c
      have hseg : c.Segment (s ++ [ch]) :=
        ⟨hend, fun p hp hends => (prefix_append_singleton hp).resolve_left fun hp => hs p hp hends⟩
      refine ⟨(s ++ [ch]) :: segs, tail, ?_, List.forall_mem_cons.mpr ⟨hseg, hsegs⟩, htail⟩
      rw [List.nil_append] at heq
      rw [List.flatten_cons, List.append_assoc, List.append_assoc, List.singleton_append, ← heq]
    · obtain ⟨segs, tail, heq, hsegs, htail⟩ := ih (s ++ [ch]) fun p hp hends =>
        (prefix_append_singleton hp).elim (fun hp => hs p hp hends) fun hp => hend (hp ▸ hends)
      refine ⟨segs, tail, ?_, hsegs, htail⟩
      rw [← heq, List.append_assoc, List.singleton_append]

/-- What a client that is at the start of a line reads of any stream: the stream falls into segments
that each end a line at their last byte only, and a rest that ends none; those that fit the line buffer
are returned, complete and in order, and the others are dropped as a whole. -/
theorem readLines_spec {c : AtClient} (h : c.Reading []) (bytes : List UInt8) :
    ∃ segs tail, c.Cut bytes segs tail ∧
      readLines c bytes = segs.filter fun seg => decide (seg.length ≤ c.recvBufsz) := by
  obtain ⟨segs, tail, hcut⟩ := exists_cut c bytes
  refine ⟨segs, tail, hcut, ?_⟩
  rw [hcut.bytes_eq]
  exact readLines_segments h hcut.segment hcut.open_tail

/-- At the start nothing has been read. -/
theorem tcpClient_reading : tcpClient.Reading [] := ⟨rfl, rfl, rfl⟩

theorem readLines_spec_okLine : ∃ segs tail, tcpClient.Cut okLine segs tail ∧
    readLines tcpClient okLine = segs.filter fun seg => decide (seg.length ≤ 256) :=
  readLines_spec tcpClient_reading okLine

/-! ## Messages -/

/-- The line as the server sends it. -/
def crlf (l : List UInt8) : List UInt8 := l ++ [0x0D, 0x0A]

/-- A line that goes through the client as it is: one line that fits the line buffer and is no URC. -/
structure AtClient.Plain (c : AtClient) (l : List UInt8) : Prop where
  line : 0x0A ∉ l
  string : 0 ∉ l
  endSign : c.endSign ≠ 0 → c.endSign ∉ l ++ [0x0D]
  response : ∀ urc ∈ c.urcTable, ¬urc.cmdPrefix <+: crlf l
  fits : (crlf l).length ≤ c.recvBufsz

/-- No front of a plain line is taken for a URC. -/
theorem AtClient.Plain.getUrcObj_eq {c : AtClient} {l : List UInt8} (h : c.Plain l)
    {p : List UInt8} (hp : p <+: crlf l) : getUrcObj c.urcTable p = none := by
  rw [getUrcObj, List.find?_eq_none]
  intro urc hurc hmatch
  simp only [Bool.and_eq_true, List.isPrefixOf_iff_prefix] at hmatch
  exact h.response urc hurc (hmatch.1.2.trans hp)

/-- A plain line is a segment of the stream. -/
theorem AtClient.Plain.segment {c : AtClient} {l : List UInt8} (h : c.Plain l) :
    c.Segment (crlf l) := by
  have hcrlf : crlf l = (l ++ [0x0D]) ++ [0x0A] := by rw [crlf, List.append_assoc]; rfl
  refine ⟨⟨l ++ [0x0D], 0x0A, hcrlf, .inl ⟨rfl, List.getLast?_concat⟩⟩, ?_⟩
  rintro p hp ⟨init, ch, rfl, hends⟩
  rw [hcrlf] at hp ⊢
  refine (prefix_append_singleton hp).resolve_left fun hshort => ?_
  have hch : ch ∈ l ++ [0x0D] := hshort.subset (by simp)
  rcases hends with ⟨rfl, -⟩ | ⟨hsign, rfl⟩ | hurc
  · exact h.line (by simpa using hch)
  · exact h.endSign hsign hch
  · rw [h.getUrcObj_eq ((List.take_prefix _ _).trans (hcrlf ▸ hp))] at hurc
    exact absurd hurc (by simp)

/-- The two clients are at the same point of the same line. -/
structure SameReader (c c' : AtClient) : Prop extends SameFraming c c' where
  recvLineBuf_eq : c'.recvLineBuf = c.recvLineBuf
  lastCh_eq : c'.lastCh = c.lastCh
  isFull_eq : c'.isFull = c.isFull

/-- Two readers store a byte alike. -/
theorem SameReader.putChar {c c' : AtClient} (h : SameReader c c') (ch : UInt8) :
    SameReader (c.putChar ch) (c'.putChar ch) := by
  obtain ⟨⟨hsign, hsize, htable⟩, hbuf, hlast, hfull⟩ := h
  unfold AtClient.putChar
  rw [hbuf, hsize]
  split_ifs
  · exact ⟨⟨hsign, rfl, htable⟩, rfl, hlast, hfull⟩
  · exact ⟨⟨hsign, rfl, htable⟩, rfl, hlast, rfl⟩

/-- They read a byte alike. -/
theorem SameReader.atRecvReadline {c c' : AtClient} (h : SameReader c c') (ch : UInt8) :
    SameReader (atRecvReadline c ch).1 (atRecvReadline c' ch).1 ∧
      (atRecvReadline c' ch).2 = (atRecvReadline c ch).2 := by
  obtain ⟨⟨hsign, hsize, htable⟩, hbuf, hlast, hfull⟩ := h.putChar ch
  rw [atRecvReadline_eq, atRecvReadline_eq, hbuf, hlast, hsign, htable, hfull]
  split_ifs
  · exact ⟨⟨⟨hsign, hsize, htable⟩, rfl, rfl, rfl⟩, rfl⟩
  · exact ⟨⟨⟨hsign, hsize, htable⟩, rfl, rfl, rfl⟩, rfl⟩
  · exact ⟨⟨⟨hsign, hsize, htable⟩, hbuf, rfl, hfull⟩, rfl⟩

/-- And so they read a stream alike. -/
theorem SameReader.readLines {c c' : AtClient} (h : SameReader c c') (bytes : List UInt8) :
    readLines c' bytes = readLines c bytes := by
  induction bytes generalizing c c' with
  | nil => rfl
  | cons ch bytes ih =>
    obtain ⟨hreader, hline⟩ := h.atRecvReadline ch
    rw [At.readLines, At.readLines, hline, ih hreader]

/-- The result that `at_obj_exec_cmd` returns. -/
def AtRespStatus.result : AtRespStatus → ℤ
  | ok => rtEok
  | error => -rtError
  | timeout => -rtEtimeout
  | buffFull => -rtError

end Stm32Board.At
