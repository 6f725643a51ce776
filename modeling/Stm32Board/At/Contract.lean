import Stm32Board.At.Defs
import Mathlib.Data.List.Basic
import Mathlib.Order.Nat
import Mathlib.Logic.Basic
import Mathlib.Tactic.SplitIfs

/-!
# The failure contract of the AT client

Every response created is to be deleted once before `TCP_send_AT` returns, and a command sequence is
not to return `RT_EOK` when one of its commands failed. `runCalls_contract_iff` says for which answers
of the library a run of calls keeps the contract: the ones under which nothing fails, except that a
direct `TCP_send_AT` may fail to create its response.
-/

namespace Stm32Board.At

open Common

/-! ## The contract -/

/-- A response created by a `TCP_send_AT` that has returned has been deleted exactly once. -/
def SendResult.DeletesOnce (r : SendResult) : Prop :=
  r.ret.isSome → ∀ size resp, AtOp.createResp size (some resp) ∈ r.ops →
    r.ops.count (.deleteResp resp) = 1

/-- The `TCP_send_AT` returned something else than `RT_EOK`. -/
def SendResult.Failed (r : SendResult) : Prop := ∃ v, r.ret = some v ∧ v ≠ rtEok

/-- The call runs a sequence of commands. -/
def AppCall.IsSequence : AppCall → Prop
  | tcpSendAt _ _ _ => False
  | linkWifi _ => True
  | getTime _ => True
  | getWeather _ => True

structure CallContract (c : AppCall) (res : CallResult) : Prop where
  deletes : ∀ r, AppEvent.sent r ∈ res.events → r.DeletesOnce
  reports : c.IsSequence → (∃ r, AppEvent.sent r ∈ res.events ∧ r.Failed) →
    ∃ v, res.ret = some v ∧ v ≠ rtEok

/-- Every call made keeps the contract. -/
def RunContract (calls : List AppCall) : Prop := ∀ p ∈ runCalls calls, CallContract p.1 p.2

/-! ## The answers of the library -/

/-- A try succeeds and the first line is parsed. -/
def SendOutcome.Answered (o : SendOutcome) : Prop :=
  (0 ≤ o.exec ∨ 0 ≤ o.execAgain) ∧ 0 < o.parsed

/-- The response is created, the command answered, and there are few enough lines to print. -/
def SendOutcome.Succeeds (o : SendOutcome) : Prop :=
  o.created.isSome ∧ o.Answered ∧ o.lineCounts < 255

/-- The response is created and the command answered, with too many lines to print. -/
def SendOutcome.Hangs (o : SendOutcome) : Prop :=
  o.created.isSome ∧ o.Answered ∧ 255 ≤ o.lineCounts

/-- The lines are printed once each in order, unless there are too many for the counter. -/
theorem showLines_eq (resp : RespId) (lineCounts : ℕ) :
    showLines resp lineCounts =
      if lineCounts < 255 then
        some ((List.range lineCounts).flatMap fun k => [.getLine resp (k + 1)])
      else none := by
  split_ifs with h
  · refine forLoop_eq_some _ (fun k hk => ?_) ?_ (fun k hk => ?_) (by rw [fuelU8]; omega)
    · rw [decide_eq_true_eq, toNat_iterate_add_one_u8, UInt8.toNat_one]
      omega
    · rw [decide_eq_false_iff_not, toNat_iterate_add_one_u8, UInt8.toNat_one]
      omega
    · rw [toNat_iterate_add_one_u8, UInt8.toNat_one, Nat.mod_eq_of_lt (by omega), Nat.add_comm]
  · refine forLoop_eq_none fun k _ => ?_
    rw [decide_eq_true_eq, toNat_iterate_add_one_u8]
    omega

/-! ## One command -/

/-- The ways one `TCP_send_AT` can go. -/
inductive SendCase (o : SendOutcome) (r : SendResult) : Prop where
  | notCreated (hcreated : o.created = none) (hret : r.ret = some (-1))
      (hops : ∀ size resp, AtOp.createResp size (some resp) ∉ r.ops)
  | leaked (resp : RespId) (size : ℕ) (hcreated : o.created = some resp) (hanswer : ¬o.Answered)
      (hret : r.ret = some (-2) ∨ r.ret = some (-3))
      (hmem : AtOp.createResp size (some resp) ∈ r.ops)
      (hops : AtOp.deleteResp resp ∉ r.ops)
  | hung (hhangs : o.Hangs) (hret : r.ret = none)
  | succeeded (hsucceeds : o.Succeeds) (hret : r.ret = some rtEok) (hdeletes : r.DeletesOnce)

/-- What `tcp_send_at` does is one of the cases. -/
theorem tcpSendAt_cases (commend : String) (structBuff : ℕ) (o : SendOutcome) :
    SendCase o (tcpSendAt commend structBuff o) := by
  rw [tcpSendAt]
  rcases hcreated : o.created with _ | resp
  · exact .notCreated hcreated rfl (by simp)
  · dsimp only
    -- a second try makes the same call again
    have hretry : ∀ op ∈ (if o.exec < 0 then [AtOp.execCmd resp commend] else []),
        op = .execCmd resp commend := by
      split_ifs <;> simp
    generalize (if o.exec < 0 then [AtOp.execCmd resp commend] else []) = retry at hretry ⊢
    have hdelete : AtOp.deleteResp resp ∉ retry := fun h => by simpa using hretry _ h
    by_cases hexec : o.exec < 0 ∧ o.execAgain < 0
    · rw [if_pos hexec]
      refine .leaked resp structBuff hcreated (fun h => ?_) (.inl rfl) (by simp) (by simpa)
      have := h.1
      omega
    · rw [if_neg hexec]
      by_cases hparse : o.parsed ≤ 0
      · rw [if_pos hparse]
        refine .leaked resp structBuff hcreated (fun h => ?_) (.inr rfl) (by simp) (by simpa)
        have := h.2
        omega
      · have hanswered : o.Answered := ⟨by omega, by omega⟩
        have hsome : o.created.isSome := by rw [hcreated]; rfl
        rw [if_neg hparse, showLines_eq]
        by_cases hlines : o.lineCounts < 255
        · rw [if_pos hlines]
          refine .succeeded ⟨hsome, hanswered, hlines⟩ rfl fun _ size resp' hmem => ?_
          have hlines' : ∀ r, AtOp.deleteResp r ∉
              (List.range o.lineCounts).flatMap fun k => [AtOp.getLine resp (k + 1)] := by simp
          have hcreate : resp' = resp := by
            simp only [List.mem_append, List.mem_flatMap] at hmem
            rcases hmem with (((h | h) | h) | ⟨_, _, h⟩) | h
            · exact (by simpa using h : size = structBuff ∧ resp' = resp).2
            · exact absurd (hretry _ h) (by simp)
            all_goals exact absurd h (by simp)
          subst hcreate
          rw [List.count_append, List.count_append, List.count_append, List.count_append,
            List.count_eq_zero.mpr hdelete, List.count_eq_zero.mpr (hlines' _)]
          simp
        · rw [if_neg hlines]
          exact .hung ⟨hsome, hanswered, by omega⟩ rfl

/-- The response is not created, or the command is not answered. -/
def SendOutcome.Fails (o : SendOutcome) : Prop := o.created = none ∨ ¬o.Answered

section SendCase

variable {o : SendOutcome} {r : SendResult}

/-- What succeeds does not fail. -/
theorem SendOutcome.Succeeds.not_fails (h : o.Succeeds) : ¬o.Fails := by
  rintro (hnone | hanswer)
  · rw [Succeeds, hnone] at h
    exact absurd h.1 (by simp)
  · exact hanswer h.2.1

/-- Nor does what never ends. -/
theorem SendOutcome.Hangs.not_fails (h : o.Hangs) : ¬o.Fails := by
  rintro (hnone | hanswer)
  · rw [Hangs, hnone] at h
    exact absurd h.1 (by simp)
  · exact hanswer h.2.1

/-- It returns nothing exactly when it hangs. -/
theorem SendCase.ret_none_iff (h : SendCase o r) : r.ret = none ↔ o.Hangs := by
  cases h with
  | notCreated hcreated hret hops =>
    exact iff_of_false (by rw [hret]; simp) fun h => h.not_fails (.inl hcreated)
  | leaked resp size hcreated hanswer hret hmem hops =>
    exact iff_of_false (by rcases hret with hret | hret <;> rw [hret] <;> simp)
      fun h => h.not_fails (.inr hanswer)
  | hung hhangs hret => exact iff_of_true hret hhangs
  | succeeded hsucceeds hret hdeletes =>
    refine iff_of_false (by rw [hret]; simp) fun h => ?_
    have h₁ := h.2.2
    have h₂ := hsucceeds.2.2
    omega

/-- It returns `RT_EOK` exactly on success. -/
theorem SendCase.ret_ok_iff (h : SendCase o r) : r.ret = some rtEok ↔ o.Succeeds := by
  cases h with
  | notCreated hcreated hret hops =>
    exact iff_of_false (by rw [hret]; decide) fun h => h.not_fails (.inl hcreated)
  | leaked resp size hcreated hanswer hret hmem hops =>
    exact iff_of_false (by rcases hret with hret | hret <;> rw [hret] <;> decide)
      fun h => h.not_fails (.inr hanswer)
  | hung hhangs hret =>
    refine iff_of_false (by rw [hret]; simp) fun h => ?_
    have h₁ := h.2.2
    have h₂ := hhangs.2.2
    omega
  | succeeded hsucceeds hret hdeletes => exact iff_of_true hret hsucceeds

/-- It reports an error exactly on failure. -/
theorem SendCase.failed_iff (h : SendCase o r) : r.Failed ↔ o.Fails := by
  cases h with
  | notCreated hcreated hret hops =>
    exact iff_of_true ⟨_, hret, by decide⟩ (.inl hcreated)
  | leaked resp size hcreated hanswer hret hmem hops =>
    refine iff_of_true ?_ (.inr hanswer)
    rcases hret with hret | hret <;> exact ⟨_, hret, by decide⟩
  | hung hhangs hret =>
    refine iff_of_false ?_ hhangs.not_fails
    rintro ⟨v, hv, -⟩
    exact absurd (hret.symm.trans hv) (by simp)
  | succeeded hsucceeds hret hdeletes =>
    refine iff_of_false ?_ hsucceeds.not_fails
    rintro ⟨v, hv, hne⟩
    exact hne (Option.some.inj (hret.symm.trans hv)).symm

/-- The response is lost when it was created for a command that is not answered. -/
theorem SendCase.deletesOnce_iff (h : SendCase o r) :
    r.DeletesOnce ↔ o.created = none ∨ o.Answered := by
  cases h with
  | notCreated hcreated hret hops =>
    exact iff_of_true (fun _ size resp hmem => absurd hmem (hops size resp)) (.inl hcreated)
  | leaked resp size hcreated hanswer hret hmem hops =>
    refine iff_of_false (fun hdeletes => ?_) ?_
    · have hret' : r.ret.isSome := by rcases hret with hret | hret <;> rw [hret] <;> rfl
      exact absurd (hdeletes hret' size resp hmem) (by rw [List.count_eq_zero.mpr hops]; decide)
    · rintro (hnone | h)
      · exact absurd (hcreated.symm.trans hnone) (by simp)
      · exact hanswer h
  | hung hhangs hret =>
    exact iff_of_true (fun h => absurd h (by rw [hret]; simp)) (.inr hhangs.2.1)
  | succeeded hsucceeds hret hdeletes => exact iff_of_true hdeletes (.inr hsucceeds.2.1)

end SendCase

/-! ## A sequence of commands -/

/-- Among the first `n` answers, one with `P` is reached through successes. -/
def Outcomes.Reaches (o : Outcomes) (n : ℕ) (P : SendOutcome → Prop) : Prop :=
  ∃ i < n, (∀ j < i, (o j).Succeeds) ∧ P (o i)

/-- A sequence without commands reaches nothing. -/
theorem reaches_zero (o : Outcomes) (P : SendOutcome → Prop) : ¬o.Reaches 0 P := by
  rintro ⟨i, hi, -⟩
  exact absurd hi (Nat.not_lt_zero i)

/-- A command is reached when all before it have succeeded. -/
theorem reaches_succ (o : Outcomes) (n : ℕ) (P : SendOutcome → Prop) :
    o.Reaches (n + 1) P ↔
      P (o 0) ∨ (o 0).Succeeds ∧ Outcomes.Reaches (fun k => o (k + 1)) n P := by
  constructor
  · rintro ⟨i, hi, hbefore, hP⟩
    cases i with
    | zero => exact .inl hP
    | succ i =>
      exact .inr ⟨hbefore 0 (by omega), i, by omega, fun j hj => hbefore (j + 1) (by omega), hP⟩
  · rintro (hP | ⟨h₀, i, hi, hbefore, hP⟩)
    · exact ⟨0, by omega, by simp, hP⟩
    · refine ⟨i + 1, by omega, fun j hj => ?_, hP⟩
      cases j with
      | zero => exact h₀
      | succ j => exact hbefore j (by omega)

/-- What a sequence does, in terms of the answers it reaches. -/
structure SequenceSpec (n : ℕ) (o : Outcomes) (res : CallResult) : Prop where
  ret_none_iff : res.ret = none ↔ o.Reaches n SendOutcome.Hangs
  ret_eq : ∀ v, res.ret = some v → v = rtEok
  failed_iff : (∃ r, AppEvent.sent r ∈ res.events ∧ r.Failed) ↔ o.Reaches n SendOutcome.Fails
  deletes : ¬o.Reaches n SendOutcome.Fails →
    ∀ r, AppEvent.sent r ∈ res.events → r.DeletesOnce

section Sequence

variable {n : ℕ} {o : Outcomes} {r : SendResult} (hcase : SendCase (o 0) r)

include hcase

/-- The first command never returns. -/
theorem SequenceSpec.of_hangs (h : (o 0).Hangs) :
    SequenceSpec (n + 1) o { events := [.sent r], ret := none } where
  ret_none_iff := iff_of_true rfl ((reaches_succ _ _ _).mpr (.inl h))
  ret_eq v hv := absurd hv (by simp)
  failed_iff := by
    have hnot : ¬(o 0).Succeeds := fun hs => absurd h.2.2 (Nat.not_le.mpr hs.2.2)
    rw [reaches_succ, ← hcase.failed_iff]
    simp [hnot]
  deletes _ r' hr' := by
    obtain rfl : r' = r := by simpa using hr'
    exact hcase.deletesOnce_iff.mpr (.inr h.2.1)

/-- The first command fails. -/
theorem SequenceSpec.of_fails (h : (o 0).Fails) :
    SequenceSpec (n + 1) o { events := [.sent r], ret := some rtEok } where
  ret_none_iff := by
    have hnot : ¬(o 0).Succeeds := fun hs => hs.not_fails h
    have hnone : ¬(o 0).Hangs := fun hh => hh.not_fails h
    rw [reaches_succ]
    simp [hnone, hnot]
  ret_eq v hv := (Option.some.inj hv).symm
  failed_iff := by
    have hnot : ¬(o 0).Succeeds := fun hs => hs.not_fails h
    rw [reaches_succ, ← hcase.failed_iff]
    simp [hnot]
  deletes hfine := absurd ((reaches_succ _ _ _).mpr (.inl h)) hfine

/-- The first command succeeds, and the sequence goes on with the answers after it. -/
theorem SequenceSpec.of_succeeds (h : (o 0).Succeeds) {rest : CallResult}
    (hrest : SequenceSpec n (fun k => o (k + 1)) rest) (after : List AtOp) :
    SequenceSpec (n + 1) o
      { events := .sent r :: after.map .lib ++ rest.events, ret := rest.ret } where
  ret_none_iff := by
    have hnone : ¬(o 0).Hangs := fun hh => absurd hh.2.2 (Nat.not_le.mpr h.2.2)
    rw [reaches_succ, or_iff_right hnone, and_iff_right h]
    exact hrest.ret_none_iff
  ret_eq := hrest.ret_eq
  failed_iff := by
    have hr : ¬r.Failed := fun hf => h.not_fails (hcase.failed_iff.mp hf)
    rw [reaches_succ, or_iff_right h.not_fails, and_iff_right h, ← hrest.failed_iff]
    simp [or_and_right, exists_or, hr]
  deletes hfine r' hr' := by
    rw [reaches_succ, or_iff_right h.not_fails, and_iff_right h] at hfine
    have hmem : r' = r ∨ AppEvent.sent r' ∈ rest.events := by simpa using hr'
    rcases hmem with rfl | hr'
    · exact hcase.deletesOnce_iff.mpr (.inr h.2.1)
    · exact hrest.deletes hfine r' hr'

end Sequence

/-- A sequence of any length, by what its first command does. -/
theorem sendCommands_spec (structBuff : ℕ) (after rest : List AtOp) (commends : List String)
    (o : Outcomes) :
    SequenceSpec commends.length o (sendCommands structBuff after rest commends o) := by
  induction commends generalizing o with
  | nil =>
    refine ⟨iff_of_false (by simp [sendCommands]) (reaches_zero _ _), ?_,
      iff_of_false ?_ (reaches_zero _ _), fun _ r hr => ?_⟩
    · rintro v hv
      exact (Option.some.inj hv).symm
    · rintro ⟨r, hr, -⟩
      simp [sendCommands] at hr
    · simp [sendCommands] at hr
  | cons commend commends ih =>
    have hcase := tcpSendAt_cases commend structBuff (o 0)
    rw [sendCommands, List.length_cons]
    generalize tcpSendAt commend structBuff (o 0) = r at hcase ⊢
    rcases hret : r.ret with _ | v
    · exact .of_hangs hcase (hcase.ret_none_iff.mp hret)
    · by_cases hv : v ≠ rtEok
      · -- the sequence ends with the value 0, which is `RT_EOK`
        simp only [hv, ne_eq, not_false_eq_true, if_true]
        exact .of_fails hcase (hcase.failed_iff.mp ⟨v, hret, hv⟩)
      · obtain rfl : v = rtEok := not_not.mp hv
        simp only [ne_eq, not_true_eq_false, if_false]
        exact .of_succeeds hcase (hcase.ret_ok_iff.mp hret) (ih fun k => o (k + 1)) after

/-- A library call before the sequence changes nothing. -/
theorem SequenceSpec.cons_lib {n : ℕ} {o : Outcomes} {res : CallResult}
    (h : SequenceSpec n o res) (op : AtOp) :
    SequenceSpec n o { res with events := .lib op :: res.events } where
  ret_none_iff := h.ret_none_iff
  ret_eq := h.ret_eq
  failed_iff := by simpa using h.failed_iff
  deletes := by simpa using h.deletes

/-- The five commands of `link_wifi`. -/
theorem linkWifi_spec (o : Outcomes) : SequenceSpec 5 o (linkWifi o) :=
  sendCommands_spec _ _ _ linkWifiCommends o

theorem getTime_spec (o : Outcomes) : SequenceSpec 3 o (getTime o) :=
  (sendCommands_spec _ _ _ getTimeCommends o).cons_lib _

theorem getWeather_spec (o : Outcomes) : SequenceSpec 3 o (getWeather o) :=
  (sendCommands_spec _ _ _ getWeatherCommends o).cons_lib _

/-- A sequence always returns `RT_EOK`, so it keeps the contract when no command fails. -/
theorem SequenceSpec.contract_iff {n : ℕ} {o : Outcomes} {res : CallResult}
    (h : SequenceSpec n o res) {c : AppCall} (hc : c.IsSequence) :
    CallContract c res ↔ ¬o.Reaches n SendOutcome.Fails := by
  constructor
  · intro hcontract hfails
    obtain ⟨v, hv, hne⟩ := hcontract.reports hc (h.failed_iff.mpr hfails)
    exact hne (h.ret_eq v hv)
  · intro hfine
    exact ⟨h.deletes hfine, fun _ hfailed => absurd (h.failed_iff.mp hfailed) hfine⟩

/-! ## Runs -/

/-- No command that is reached fails, except that a direct `TCP_send_AT` may fail to create its
response. -/
def AppCall.Fine : AppCall → Prop
  | tcpSendAt _ _ o => o.created = none ∨ o.Answered
  | linkWifi o => ¬o.Reaches 5 SendOutcome.Fails
  | getTime o => ¬o.Reaches 3 SendOutcome.Fails
  | getWeather o => ¬o.Reaches 3 SendOutcome.Fails

/-- No command that is reached gets more lines than the counter can count. -/
def AppCall.Returns : AppCall → Prop
  | tcpSendAt _ _ o => ¬o.Hangs
  | linkWifi o => ¬o.Reaches 5 SendOutcome.Hangs
  | getTime o => ¬o.Reaches 3 SendOutcome.Hangs
  | getWeather o => ¬o.Reaches 3 SendOutcome.Hangs

/-- A call keeps the contract exactly when it is fine. -/
theorem AppCall.contract_iff (c : AppCall) : CallContract c c.exec ↔ c.Fine := by
  cases c with
  | tcpSendAt commend structBuff o =>
    rw [Fine, ← (tcpSendAt_cases commend structBuff o).deletesOnce_iff]
    constructor
    · intro h
      exact h.deletes _ (by simp [exec])
    · intro h
      refine ⟨fun r hr => ?_, fun hseq => absurd hseq (by simp [IsSequence])⟩
      obtain rfl : r = At.tcpSendAt commend structBuff o := by simpa [exec] using hr
      exact h
  | linkWifi o => exact (linkWifi_spec o).contract_iff trivial
  | getTime o => exact (getTime_spec o).contract_iff trivial
  | getWeather o => exact (getWeather_spec o).contract_iff trivial

/-- And it returns exactly when no command of it hangs. -/
theorem AppCall.ret_isSome_iff (c : AppCall) : c.exec.ret.isSome ↔ c.Returns := by
  rw [Option.isSome_iff_ne_none, ne_eq]
  cases c with
  | tcpSendAt commend structBuff o =>
    exact not_congr (tcpSendAt_cases commend structBuff o).ret_none_iff
  | linkWifi o => exact not_congr (linkWifi_spec o).ret_none_iff
  | getTime o => exact not_congr (getTime_spec o).ret_none_iff
  | getWeather o => exact not_congr (getWeather_spec o).ret_none_iff

/-- The call is made: all calls before it return. -/
def IsReached (calls : List AppCall) (c : AppCall) : Prop :=
  ∃ before after, calls = before ++ c :: after ∧ ∀ b ∈ before, b.Returns

/-- A call is reached when the ones before it return. -/
theorem isReached_cons {c c' : AppCall} {cs : List AppCall} :
    IsReached (c :: cs) c' ↔ c' = c ∨ c.Returns ∧ IsReached cs c' := by
  constructor
  · rintro ⟨before, after, heq, hbefore⟩
    cases before with
    | nil => exact .inl (List.cons.inj heq).1.symm
    | cons b before =>
      obtain ⟨rfl, rfl⟩ := List.cons.inj heq
      obtain ⟨hb, hbefore⟩ := List.forall_mem_cons.mp hbefore
      exact .inr ⟨hb, before, after, rfl, hbefore⟩
  · rintro (heq | ⟨hc, before, after, rfl, hbefore⟩)
    · exact ⟨[], cs, by rw [heq]; rfl, by simp⟩
    · exact ⟨c :: before, after, rfl, List.forall_mem_cons.mpr ⟨hc, hbefore⟩⟩

/-- A run makes the calls that are reached, each with its own result. -/
theorem mem_runCalls_iff (calls : List AppCall) (p : AppCall × CallResult) :
    p ∈ runCalls calls ↔ IsReached calls p.1 ∧ p.2 = p.1.exec := by
  induction calls with
  | nil => simp [runCalls, IsReached]
  | cons c cs ih =>
    rw [runCalls, List.mem_cons, isReached_cons]
    split_ifs with hret
    · rw [ih, and_iff_right (c.ret_isSome_iff.mp hret)]
      constructor
      · rintro (rfl | ⟨h, hexec⟩)
        · exact ⟨.inl rfl, rfl⟩
        · exact ⟨.inr h, hexec⟩
      · rintro ⟨rfl | h, hexec⟩
        · exact .inl (Prod.ext rfl hexec)
        · exact .inr ⟨h, hexec⟩
    · have hnot : ¬c.Returns := fun h => hret (c.ret_isSome_iff.mpr h)
      simp only [hnot, false_and, or_false, List.not_mem_nil]
      constructor
      · rintro rfl
        exact ⟨rfl, rfl⟩
      · rintro ⟨rfl, hexec⟩
        exact Prod.ext rfl hexec

/-- A run keeps the failure contract exactly when every call that is made is fine: no command fails,
except a direct one to which no response object could be given. -/
theorem runCalls_contract_iff (calls : List AppCall) :
    RunContract calls ↔ ∀ c, IsReached calls c → c.Fine := by
  constructor
  · intro h c hc
    exact c.contract_iff.mp (h (c, c.exec) ((mem_runCalls_iff calls _).mpr ⟨hc, rfl⟩))
  · rintro h ⟨c, res⟩ hp
    obtain ⟨hreached, hexec⟩ := (mem_runCalls_iff calls _).mp hp
    rw [hexec]
    exact c.contract_iff.mpr (h c hreached)

/-- A command that fails twice loses its response, and at the start of a sequence it makes the
sequence return `RT_EOK`. -/
theorem not_runContract_failed_command :
    ¬RunContract [.tcpSendAt "AT" 1024 ⟨some 0, -2, -2, 0, 0⟩] ∧
      ¬RunContract [.linkWifi fun _ => ⟨some 0, -2, -2, 0, 0⟩] := by
  constructor
  · intro h
    have hdelete := (h _ (List.mem_singleton.mpr rfl)).deletes _ (List.mem_singleton.mpr rfl) rfl
      1024 0 (by decide)
    exact absurd hdelete (by decide)
  · intro h
    obtain ⟨v, hv, hne⟩ := (h _ (List.mem_singleton.mpr rfl)).reports trivial
      ⟨_, List.mem_singleton.mpr rfl, -2, rfl, by decide⟩
    exact hne (Option.some.inj hv).symm

end Stm32Board.At
