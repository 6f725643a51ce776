import Stm32Board.Uart.Defs
import Mathlib.Data.List.Induction
import Mathlib.Tactic.SplitIfs

/-!
# The echo over every interleaving

The reader is never suspended over a byte, and it echoes what is received up to the first `!`, in
every run in which no interrupt finds the reader between an empty read and its take with the
semaphore at its largest value (`run_uartSound`). Such an interrupt wraps the value to zero.
-/

namespace Stm32Board.Uart

open Common

/-! ## The property -/

/-- The bytes up to the first `!`, which is included. -/
def upToBang : List UInt8 → List UInt8
  | [] => []
  | ch :: bytes => if ch = bang then [ch] else ch :: upToBang bytes

/-- The byte the reader holds between its read and its echo. -/
def ReaderPc.held : ReaderPc → List UInt8
  | .echo ch => [ch]
  | _ => []

/-- The bytes received and not yet echoed, while the device is open. -/
def UartState.pending (s : UartState) : List UInt8 :=
  s.pc.held ++ (s.serialRx.map RingBuffer.toList).getD []

/-- What is asked of a state that a run reaches: the reader is not suspended over a byte; without
an overrun, the echo is a front of the bytes up to the first `!`, nothing but the pending bytes is
missing from it, and it is complete when the thread exits. -/
structure UartSound (s : UartState) (outs : List UartOutput) : Prop where
  awake : s.pc = .blocked → ∀ fifo, s.serialRx = some fifo → fifo.toList = []
  inOrder : NoOverrun outs → echoed outs <+: upToBang (received outs)
  noLoss : NoOverrun outs → s.pc ≠ .exited → echoed outs ++ s.pending = received outs
  complete : NoOverrun outs → s.pc = .exited → echoed outs = upToBang (received outs)

/-- The event does not release the semaphore at its largest value between an empty read and the
take. -/
def NoWrap (s : UartState) : UartEvent → Prop
  | .rxInterrupt _ _ => ¬(s.pc = .take ∧ s.semValue = 65535)
  | .reader => True

/-! ## Bytes up to the first `!` -/

/-- A stretch without an end mark is kept. -/
theorem upToBang_append_of_notMem {l : List UInt8} (h : bang ∉ l) (bytes : List UInt8) :
    upToBang (l ++ bytes) = l ++ upToBang bytes := by
  induction l with
  | nil => rfl
  | cons ch l ih =>
    rw [List.mem_cons, not_or] at h
    rw [List.cons_append, upToBang, if_neg (Ne.symm h.1), ih h.2, List.cons_append]

/-- The first end mark is the last byte kept. -/
theorem upToBang_append_bang {l : List UInt8} (h : bang ∉ l) (bytes : List UInt8) :
    upToBang (l ++ [bang] ++ bytes) = l ++ [bang] := by
  rw [List.append_assoc, upToBang_append_of_notMem h]
  simp [upToBang]

/-! ## The semaphore never lags behind the FIFO -/

/-- After an empty read, a byte that has come in since has left a token; a suspended reader has
nothing to read. -/
structure TokenInv (s : UartState) : Prop where
  take : s.pc = .take → ∀ fifo, s.serialRx = some fifo → fifo.toList ≠ [] → 0 < s.semValue
  blocked : s.pc = .blocked → ∀ fifo, s.serialRx = some fifo → fifo.toList = []

/-- Elsewhere nothing is asked of the tokens. -/
theorem TokenInv.of_pc {s : UartState} (htake : s.pc ≠ .take) (hblocked : s.pc ≠ .blocked) :
    TokenInv s :=
  ⟨fun h => absurd h htake, fun h => absurd h hblocked⟩

/-- An interrupt leaves a token, or a reader that reads again, unless the value wraps. -/
theorem TokenInv.interrupt {s t : UartState} {o : UartOutput} {ch : UInt8} {more : List UInt8}
    (hwrap : NoWrap s (.rxInterrupt ch more))
    (hstep : uartStep s (.rxInterrupt ch more) = some (t, o)) : TokenInv t := by
  obtain ⟨fifo, -, rfl, -⟩ := uartStep_interrupt hstep
  rw [uartInput_eq]
  split_ifs with hpc
  · exact .of_pc (by simp) (by simp)
  · refine ⟨fun h _ _ _ => ?_, fun h => absurd h hpc⟩
    have hmax : s.semValue ≠ 65535 := fun hvalue => hwrap ⟨h, hvalue⟩
    grind

/-- A move of the reader keeps the tokens in step with the FIFO. -/
theorem TokenInv.reader {s t : UartState} {out : List UInt8} (hinv : TokenInv s)
    (hmove : ReaderMove s t out) : TokenInv t := by
  cases hmove with
  | empty hpc hrx hfifo =>
    refine ⟨fun _ fifo' hrx' hne => absurd ?_ hne, fun h => absurd h (by simp)⟩
    obtain rfl := Option.some.inj (hrx.symm.trans hrx')
    exact hfifo
  | byte => exact .of_pc (by simp) (by simp)
  | token => exact .of_pc (by simp) (by simp)
  | suspend hpc hvalue =>
    refine ⟨fun h => absurd h (by simp), fun _ fifo hrx => ?_⟩
    -- a byte would have left a token, and the take would have found it
    by_contra hne
    exact hvalue (hinv.take hpc fifo hrx hne)
  | @echo ch hpc =>
    by_cases hch : ch = bang
    · exact .of_pc (by simp [hch]) (by simp [hch])
    · exact .of_pc (by simp [hch]) (by simp [hch])
  | close => exact .of_pc (by simp) (by simp)

/-- Every event keeps the invariant, as long as the value does not wrap. -/
theorem TokenInv.step {s t : UartState} {o : UartOutput} {e : UartEvent} (hinv : TokenInv s)
    (hwrap : NoWrap s e) (hstep : uartStep s e = some (t, o)) : TokenInv t := by
  cases e with
  | rxInterrupt ch more => exact .interrupt hwrap hstep
  | reader => exact hinv.reader (serialThreadStep_cases hstep).1

/-! ## Nothing is lost, doubled or reordered -/

/-- The reader has not echoed a `!`. -/
def ReaderPc.Running (pc : ReaderPc) : Prop := pc ≠ .closing ∧ pc ≠ .exited

/-- The bytes echoed and the bytes pending are the bytes received, and an echoed `!` is the last
echoed byte. -/
structure EchoInv (s : UartState) (rec ech : List UInt8) : Prop where
  closed : s.pc = .exited → s.serialRx = none
  noLoss : s.pc ≠ .exited → ech ++ s.pending = rec
  front : ech <+: rec
  running : s.pc.Running → bang ∉ ech
  ended : ¬s.pc.Running → ∃ l, bang ∉ l ∧ ech = l ++ [bang]

/-- The bytes on their way: the one in hand and those in the buffer. -/
theorem UartState.pending_of_open {s : UartState} {fifo : RxFifo} (h : s.serialRx = some fifo) :
    s.pending = s.pc.held ++ fifo.toList := by
  rw [pending, h]
  rfl

/-- A running reader that echoes nothing and loses none of the pending bytes. -/
theorem EchoInv.quiet {s t : UartState} {rec ech : List UInt8} (hinv : EchoInv s rec ech)
    (hs : s.pc.Running) (ht : t.pc.Running) (hpending : t.pending = s.pending) :
    EchoInv t rec ech where
  closed h := absurd h ht.2
  noLoss _ := by rw [hpending, hinv.noLoss hs.2]
  front := hinv.front
  running _ := hinv.running hs
  ended h := absurd ht h

/-- An interrupt that discards nothing adds its bytes behind the pending ones. -/
theorem EchoInv.interrupt {s t : UartState} {o : UartOutput} {rec ech : List UInt8} {ch : UInt8}
    {more : List UInt8} (hinv : EchoInv s rec ech) (hroom : o.overrun = false)
    (hstep : uartStep s (.rxInterrupt ch more) = some (t, o)) :
    EchoInv t (rec ++ (ch :: more)) ech := by
  obtain ⟨fifo, hrx, rfl, rfl⟩ := uartStep_interrupt hstep
  have hopen : s.pc ≠ .exited := fun h => by
    rw [hinv.closed h] at hrx
    exact absurd hrx (by simp)
  have hstored : EchoInv { s with serialRx := some (rxDrain fifo (ch :: more)) }
      (rec ++ (ch :: more)) ech := by
    refine ⟨fun h => absurd h hopen, fun _ => ?_, hinv.front.trans (List.prefix_append _ _),
      hinv.running, hinv.ended⟩
    rw [UartState.pending_of_open rfl, toList_rxDrain hroom, ← hinv.noLoss hopen,
      UartState.pending_of_open hrx]
    simp only [List.append_assoc]
  rw [uartInput_eq]
  split_ifs with hpc
  · have hblocked : s.pc = .blocked := hpc
    exact hstored.quiet (by simp [ReaderPc.Running, hblocked]) (by simp [ReaderPc.Running])
      (by simp [UartState.pending, ReaderPc.held, hblocked])
  · exact ⟨hstored.closed, hstored.noLoss, hstored.front, hstored.running, hstored.ended⟩

/-- A move of the reader takes what it echoes from the front of the pending bytes. -/
theorem EchoInv.reader {s t : UartState} {rec ech out : List UInt8} (hinv : EchoInv s rec ech)
    (hmove : ReaderMove s t out) : EchoInv t rec (ech ++ out) := by
  -- only the echo puts a byte out; until the end mark nothing of what came in is lost
  cases hmove with
  | empty hpc hrx hfifo =>
    rw [List.append_nil]
    exact hinv.quiet (by simp [ReaderPc.Running, hpc]) (by simp [ReaderPc.Running])
      (by simp [UartState.pending, ReaderPc.held, hpc])
  | @byte fifo fifo' ch hpc hrx hfifo =>
    rw [List.append_nil]
    refine hinv.quiet (by simp [ReaderPc.Running, hpc]) (by simp [ReaderPc.Running]) ?_
    rw [UartState.pending_of_open rfl, UartState.pending_of_open hrx, hpc, hfifo]
    rfl
  | token hpc hvalue =>
    rw [List.append_nil]
    exact hinv.quiet (by simp [ReaderPc.Running, hpc]) (by simp [ReaderPc.Running])
      (by simp [UartState.pending, ReaderPc.held, hpc])
  | suspend hpc hvalue =>
    rw [List.append_nil]
    exact hinv.quiet (by simp [ReaderPc.Running, hpc]) (by simp [ReaderPc.Running])
      (by simp [UartState.pending, ReaderPc.held, hpc])
  | @echo ch hpc =>
    have hclean : bang ∉ ech := hinv.running (by simp [ReaderPc.Running, hpc])
    have hloss := hinv.noLoss (by simp [hpc])
    rw [UartState.pending, hpc, ReaderPc.held, ← List.append_assoc] at hloss
    have hfront : ech ++ [ch] <+: rec := ⟨_, hloss⟩
    by_cases hch : ch = bang
    · refine ⟨by simp [hch], fun _ => ?_, hfront, by simp [ReaderPc.Running, hch],
        fun _ => ⟨ech, hclean, by rw [hch]⟩⟩
      rw [← hloss, UartState.pending, if_pos hch]
      rfl
    · refine ⟨by simp [hch], fun _ => ?_, hfront, fun _ => ?_, by simp [ReaderPc.Running, hch]⟩
      · rw [← hloss, UartState.pending, if_neg hch]
        rfl
      · rw [List.mem_append, List.mem_singleton, not_or]
        exact ⟨hclean, Ne.symm hch⟩
  | close hpc =>
    rw [List.append_nil]
    exact ⟨fun _ => rfl, by simp, hinv.front, by simp [ReaderPc.Running],
      fun _ => hinv.ended (by simp [ReaderPc.Running, hpc])⟩

/-- One step of either party, if it discards nothing. -/
theorem EchoInv.step {s t : UartState} {o : UartOutput} {e : UartEvent} {rec ech : List UInt8}
    (hinv : EchoInv s rec ech) (hroom : o.overrun = false)
    (hstep : uartStep s e = some (t, o)) : EchoInv t (rec ++ o.received) (ech ++ o.echoed) := by
  cases e with
  | rxInterrupt ch more =>
    have hstored := hinv.interrupt hroom hstep
    obtain ⟨fifo, -, -, rfl⟩ := uartStep_interrupt hstep
    rwa [List.append_nil]
  | reader =>
    obtain ⟨hmove, hreceived, -⟩ := serialThreadStep_cases hstep
    rw [hreceived, List.append_nil]
    exact hinv.reader hmove

/-- The invariants are what is asked of the state. -/
theorem uartSound_of_inv {s : UartState} {outs : List UartOutput} (htoken : TokenInv s)
    (hecho : NoOverrun outs → EchoInv s (received outs) (echoed outs)) : UartSound s outs := by
  have hended : ∀ rec ech : List UInt8, EchoInv s rec ech → ¬s.pc.Running → ech = upToBang rec := by
    intro rec ech hinv hpc
    obtain ⟨l, hl, hech⟩ := hinv.ended hpc
    obtain ⟨rest, hrest⟩ := hinv.front
    rw [← hrest, hech, upToBang_append_bang hl]
  refine ⟨htoken.blocked, fun hroom => ?_, fun hroom => (hecho hroom).noLoss,
    fun hroom hpc => hended _ _ (hecho hroom) fun hrun => hrun.2 hpc⟩
  by_cases hpc : s.pc.Running
  · obtain ⟨rest, hrest⟩ := (hecho hroom).front
    rw [← hrest, upToBang_append_of_notMem ((hecho hroom).running hpc)]
    exact List.prefix_append _ _
  · exact ⟨[], (List.append_nil _).trans (hended _ _ (hecho hroom) hpc)⟩

/-! ## Whole runs -/

/-- Every state that a front of the run reaches is sound. -/
def EveryStateSound (events : List UartEvent) : Prop :=
  ∀ before, before <+: events → ∀ s outs,
    Mealy.run uartStep uartSample before = some (s, outs) → UartSound s outs

/-- No interrupt of the run wraps the semaphore between an empty read and the take. -/
def NoWrapRun (events : List UartEvent) : Prop :=
  Mealy.AtEach (fun before e => ∀ s outs,
    Mealy.run uartStep uartSample before = some (s, outs) → NoWrap s e) events

/-- The tokens never lag behind in a run that does not wrap them. -/
theorem run_tokenInv {events : List UartEvent} (hwrap : NoWrapRun events) {s : UartState}
    {outs : List UartOutput} (hrun : Mealy.run uartStep uartSample events = some (s, outs)) :
    TokenInv s := by
  induction events using List.reverseRecOn generalizing s outs with
  | nil =>
    obtain ⟨rfl, -⟩ := Prod.mk.inj (Option.some.inj hrun)
    exact .of_pc (by decide) (by decide)
  | append_singleton events e ih =>
    obtain ⟨hfront, hlast⟩ := Mealy.atEach_concat.mp hwrap
    obtain ⟨m, outs', o, hrun', hstep, -⟩ := Mealy.run_concat_eq_some.mp hrun
    exact (ih hfront hrun').step (hlast m outs' hrun') hstep

/-- Without an overrun, every run echoes what it receives. -/
theorem run_echoInv {events : List UartEvent} {s : UartState} {outs : List UartOutput}
    (hrun : Mealy.run uartStep uartSample events = some (s, outs)) (hroom : NoOverrun outs) :
    EchoInv s (received outs) (echoed outs) := by
  induction events using List.reverseRecOn generalizing s outs with
  | nil =>
    obtain ⟨rfl, rfl⟩ := Prod.mk.inj (Option.some.inj hrun)
    exact ⟨by decide, fun _ => rfl, List.prefix_refl _, by simp [echoed],
      fun h => absurd ⟨by decide, by decide⟩ h⟩
  | append_singleton events e ih =>
    obtain ⟨m, outs', o, hrun', hstep, rfl⟩ := Mealy.run_concat_eq_some.mp hrun
    have hstored := (ih hrun' fun o' ho' => hroom o' (List.mem_append_left _ ho')).step
      (hroom o (by simp)) hstep
    simpa [received, echoed] using hstored

/-- Over every interleaving of the interrupts with the reader in which no interrupt wraps the
semaphore between an empty read and the take, every state reached is sound. -/
theorem everyStateSound {events : List UartEvent} (hwrap : NoWrapRun events) :
    EveryStateSound events := by
  rintro before ⟨after, rfl⟩ s outs hrun
  exact uartSound_of_inv (run_tokenInv hwrap.of_append hrun) (run_echoInv hrun)

/-! ## How many interrupts it takes -/

def UartEvent.isInterrupt : UartEvent → Bool
  | .rxInterrupt _ _ => true
  | .reader => false

/-- The reader only takes tokens. -/
theorem ReaderMove.semValue_le {s t : UartState} {out : List UInt8} (hmove : ReaderMove s t out) :
    t.semValue.toNat ≤ s.semValue.toNat := by
  cases hmove with
  | token hpc hvalue =>
    have hone : (1 : UInt16) ≤ s.semValue := by grind
    change (s.semValue - 1).toNat ≤ s.semValue.toNat
    rw [UInt16.toNat_sub_of_le _ _ hone]
    exact Nat.sub_le _ _
  | _ => exact le_rfl

/-- The semaphore holds at most a token for each interrupt. -/
theorem run_semValue_le {events : List UartEvent} {s : UartState} {outs : List UartOutput}
    (hrun : Mealy.run uartStep uartSample events = some (s, outs)) :
    s.semValue.toNat ≤ events.countP UartEvent.isInterrupt := by
  induction events using List.reverseRecOn generalizing s outs with
  | nil =>
    obtain ⟨rfl, -⟩ := Prod.mk.inj (Option.some.inj hrun)
    exact Nat.zero_le _
  | append_singleton events e ih =>
    obtain ⟨m, outs', o, hrun', hstep, -⟩ := Mealy.run_concat_eq_some.mp hrun
    have hle := ih hrun'
    rw [List.countP_append]
    cases e with
    | rxInterrupt ch more =>
      obtain ⟨fifo, -, rfl, -⟩ := uartStep_interrupt hstep
      have hone : List.countP UartEvent.isInterrupt [.rxInterrupt ch more] = 1 := rfl
      rw [uartInput_eq, hone]
      split_ifs with hpc
      · exact hle.trans (Nat.le_succ _)
      · have hadd : (m.semValue + 1).toNat ≤ m.semValue.toNat + 1 := by
          rw [UInt16.toNat_add]
          exact Nat.mod_le _ _
        exact hadd.trans (Nat.succ_le_succ hle)
    | reader => exact (serialThreadStep_cases hstep).1.semValue_le.trans hle

/-- The first 65535 interrupts cannot wrap the semaphore. -/
theorem noWrapRun_of_countP_le {events : List UartEvent}
    (h : events.countP UartEvent.isInterrupt ≤ 65535) : NoWrapRun events := by
  rintro before e after rfl s outs hrun
  cases e with
  | reader => trivial
  | rxInterrupt ch more =>
    rintro ⟨-, hmax⟩
    have hle := run_semValue_le hrun
    rw [hmax] at hle
    have hfront : (before ++ .rxInterrupt ch more :: after).countP UartEvent.isInterrupt =
        before.countP UartEvent.isInterrupt + (after.countP UartEvent.isInterrupt + 1) := by
      rw [List.countP_append, List.countP_cons]
      rfl
    have hvalue : (65535 : UInt16).toNat = 65535 := rfl
    omega

/-- Two bytes, the second of them a `!`, that come in between an empty read and the take. -/
theorem everyStateSound_two_bytes :
    EveryStateSound (.reader :: .rxInterrupt 104 [bang] :: List.replicate 6 .reader) ∧
      ∃ s outs, Mealy.run uartStep uartSample
        (.reader :: .rxInterrupt 104 [bang] :: List.replicate 6 .reader) = some (s, outs) ∧
        s.pc = .exited ∧ echoed outs = [104, bang] :=
  ⟨everyStateSound (noWrapRun_of_countP_le (by decide)), _, _, rfl, rfl, rfl⟩

/-! ## One interrupt more -/

/-- A byte that comes in before the reader looks: it is read and echoed, and its token stays. -/
def tokenRound : List UartEvent := [.rxInterrupt 0 [], .reader, .reader]

/-- 65535 bytes, each read without waiting, and one that comes in after an empty read. -/
def tokenWrapEvents : List UartEvent :=
  (List.replicate 65535 tokenRound).flatten ++ [.reader] ++ [.rxInterrupt 0 [], .reader]

/-- A FIFO that is empty has room for a byte, and holds it alone afterwards. -/
theorem rxFifo_push_empty {fifo : RxFifo} (h : fifo.toList = []) (ch : UInt8) :
    rxOverrun fifo [ch] = false ∧ (rxDrain fifo [ch]).toList = [ch] := by
  have hlen : fifo.len = 0 := by rw [← RingBuffer.length_toList, h]; rfl
  have hroom : rxOverrun fifo [ch] = false := by
    rw [rxOverrun, rxOverrun, Bool.or_false, decide_eq_false_iff_not,
      RingBuffer.next_put_eq_get_iff, hlen]
    decide
  exact ⟨hroom, by rw [toList_rxDrain hroom, h]; rfl⟩

/-- A round leaves the FIFO empty and the reader at its read, with one more token. -/
theorem run_tokenRound {fifo : RxFifo} (hfifo : fifo.toList = []) (value : UInt16) :
    ∃ fifo' outs, fifo'.toList = [] ∧
      Mealy.run uartStep ⟨some fifo, value, .read⟩ tokenRound =
        some (⟨some fifo', value + 1, .read⟩, outs) := by
  obtain ⟨-, hstored⟩ := rxFifo_push_empty hfifo 0
  rcases hpop : (rxDrain fifo [0]).pop with _ | ⟨ch, fifo'⟩
  · rw [RingBuffer.pop_eq_none_iff, hstored] at hpop
    exact absurd hpop (by simp)
  · have hlist := RingBuffer.toList_of_pop hpop
    rw [hstored, List.cons.injEq] at hlist
    obtain ⟨rfl, hempty⟩ := hlist
    refine ⟨fifo', [{ received := [0], overrun := rxOverrun fifo [0] }, {}, { echoed := [0] }],
      hempty.symm, ?_⟩
    have hisr : rtHwSerialIsr fifo [0] ⟨some fifo, value, .read⟩ =
        ⟨some (rxDrain fifo [0]), value + 1, .read⟩ := rtHwSerialIsr_eq fifo 0 [] _
    simp only [tokenRound, Mealy.run, uartStep, hisr, serialThreadStep, hpop]
    rfl

/-- Rounds add up their tokens. -/
theorem run_tokenRounds (k : ℕ) {fifo : RxFifo} (hfifo : fifo.toList = []) (value : UInt16) :
    ∃ fifo' outs, fifo'.toList = [] ∧
      Mealy.run uartStep ⟨some fifo, value, .read⟩ (List.replicate k tokenRound).flatten =
        some (⟨some fifo', value + UInt16.ofNat k, .read⟩, outs) := by
  induction k generalizing fifo value with
  | zero => exact ⟨fifo, [], hfifo, by simp [Mealy.run]⟩
  | succ k ih =>
    obtain ⟨fifo₁, outs₁, hfifo₁, hround⟩ := run_tokenRound hfifo value
    obtain ⟨fifo₂, outs₂, hfifo₂, hrest⟩ := ih hfifo₁ (value + 1)
    refine ⟨fifo₂, outs₁ ++ outs₂, hfifo₂, ?_⟩
    rw [List.replicate_succ, List.flatten_cons, Mealy.run_append_eq_some]
    refine ⟨_, outs₁, outs₂, hround, ?_, rfl⟩
    rw [hrest, UInt16.ofNat_add, UInt16.add_assoc, UInt16.add_comm 1]
    rfl

/-- The device is open until the thread exits. -/
theorem run_serialRx_isSome {events : List UartEvent} {s : UartState} {outs : List UartOutput}
    (hrun : Mealy.run uartStep uartSample events = some (s, outs)) (hpc : s.pc ≠ .exited) :
    s.serialRx.isSome := by
  induction events using List.reverseRecOn generalizing s outs with
  | nil =>
    obtain ⟨rfl, -⟩ := Prod.mk.inj (Option.some.inj hrun)
    rfl
  | append_singleton events e ih =>
    obtain ⟨m, outs', o, hrun', hstep, -⟩ := Mealy.run_concat_eq_some.mp hrun
    cases e with
    | rxInterrupt ch more =>
      obtain ⟨fifo, -, rfl, -⟩ := uartStep_interrupt hstep
      rfl
    | reader =>
      have hopen : m.pc ≠ .exited → m.serialRx.isSome := ih hrun'
      have hmove := (serialThreadStep_cases hstep).1
      generalize o.echoed = out at hmove
      cases hmove with
      | byte => rfl
      | close => exact absurd rfl hpc
      | empty h => exact hopen (by simp [h])
      | token h => exact hopen (by simp [h])
      | suspend h => exact hopen (by simp [h])
      | echo h => exact hopen (by simp [h])

/-- Wherever an interrupt does wrap the semaphore between an empty read and the take, the take
suspends the reader over its byte. -/
theorem not_everyStateSound_of_wrap {events : List UartEvent} {s : UartState}
    {outs : List UartOutput} (hrun : Mealy.run uartStep uartSample events = some (s, outs))
    (hpc : s.pc = .take) (hvalue : s.semValue = 65535) (ch : UInt8) (more : List UInt8) :
    ¬EveryStateSound (events ++ [.rxInterrupt ch more, .reader]) := by
  obtain ⟨fifo, hrx⟩ := Option.isSome_iff_exists.mp (run_serialRx_isSome hrun (by simp [hpc]))
  obtain ⟨rx, value, pc⟩ := s
  obtain rfl : rx = some fifo := hrx
  obtain rfl : pc = .take := hpc
  obtain rfl : value = 65535 := hvalue
  have hisr : rtHwSerialIsr fifo (ch :: more) ⟨some fifo, 65535, .take⟩ =
      ⟨some (rxDrain fifo (ch :: more)), 65535 + 1, .take⟩ := rtHwSerialIsr_eq fifo ch more _
  have hwrap : (65535 : UInt16) + 1 = 0 := by decide
  rw [hwrap] at hisr
  have hlast : Mealy.run uartStep ⟨some fifo, 65535, .take⟩ [.rxInterrupt ch more, .reader] =
      some (⟨some (rxDrain fifo (ch :: more)), 0, .blocked⟩,
        [{ received := ch :: more, overrun := rxOverrun fifo (ch :: more) }, {}]) := by
    simp only [Mealy.run, uartStep, serialThreadStep, hisr]
    rfl
  intro hsound
  have hempty := (hsound _ (List.prefix_refl _) _ _
    (Mealy.run_append_eq_some.mpr ⟨_, _, _, hrun, hlast, rfl⟩)).awake rfl _ rfl
  rw [← List.length_eq_zero_iff, RingBuffer.length_toList] at hempty
  exact absurd hempty (len_rxDrain_pos (fifo.len_push_pos ch) more).ne'

/-- The last of 65536 bytes comes in after an empty read and wraps the semaphore. -/
theorem not_everyStateSound_token_wrap : ¬EveryStateSound tokenWrapEvents := by
  have hinit : rxFifoInit.toList = [] := rfl
  obtain ⟨fifo, outs, hfifo, hrounds⟩ := run_tokenRounds 65535 hinit 0
  have hpop : fifo.pop = none := (RingBuffer.pop_eq_none_iff fifo).mpr hfifo
  have hempty : Mealy.run uartStep ⟨some fifo, 65535, .read⟩ [.reader] =
      some (⟨some fifo, 65535, .take⟩, [{}]) := by
    simp only [Mealy.run, uartStep, serialThreadStep, hpop]
  have hrun : Mealy.run uartStep uartSample
      ((List.replicate 65535 tokenRound).flatten ++ [.reader]) = some _ :=
    Mealy.run_append_eq_some.mpr ⟨_, _, _, hrounds, hempty, rfl⟩
  exact not_everyStateSound_of_wrap hrun rfl rfl 0 []

end Stm32Board.Uart
