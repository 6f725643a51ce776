import Stm32Board.Button.Scan

/-!
# Registering buttons

Reference: `my_button_register`, `my_button_start` and `key_fun` of
`componet_library/button/button.c`.

`key_fun` is a shell command that registers two static buttons and starts the scan timer; other code
may register buttons of its own. `my_button_start` returns when there is a timer already, but
`my_button_register` appends whatever it is given: neither the end of `button_list` nor an entry that
is there already stops it.
-/

namespace Stm32Board.Button

open Common

/-- `button_manage` with its timer. -/
structure ButtonSystem extends ButtonManage where
  /-- `button_manage.timer` is not the null pointer. -/
  timer : Bool

/-- `my_button_start`; `created` tells whether `rt_timer_create` returns a timer. -/
def myButtonStart (created : Bool) (s : ButtonSystem) : ButtonSystem × ℤ :=
  if s.timer then (s, -1) else ({ s with timer := created }, 0)

/-- The static buttons of `key_fun`. -/
def key1 : ButtonId := 1
def key2 : ButtonId := 2

/-- `key_fun`. -/
def keyFun (created : Bool) (s : ButtonSystem) : Option ButtonSystem :=
  match myButtonRegister s.toButtonManage key1 with
  | none => none
  | some m₁ =>
    match myButtonRegister m₁ key2 with
    | none => none
    | some m₂ => some (myButtonStart created { s with toButtonManage := m₂ }).1

/-- A call from anywhere in the firmware or from the shell. -/
inductive RegisterCall where
  | register (button : ButtonId)
  | keyFun (created : Bool)
deriving DecidableEq, Repr

def RegisterCall.run (s : ButtonSystem) : RegisterCall → Option ButtonSystem
  | .register button =>
    (myButtonRegister s.toButtonManage button).map fun m => { s with toButtonManage := m }
  | .keyFun created => Button.keyFun created s

/-- A sequence of calls; a write past `button_list` is `none`. -/
def runCalls (s : ButtonSystem) (calls : List RegisterCall) : Option ButtonSystem :=
  calls.foldlM RegisterCall.run s

/-- `button_manage` before any call, with the given button objects. -/
def initialSystem (objects : ButtonId → MyButton) : ButtonSystem where
  objects := objects
  pinMode := fun _ => none
  buttonList := []
  timer := false

/-- The objects a call registers. -/
def RegisterCall.buttons : RegisterCall → List ButtonId
  | .register button => [button]
  | .keyFun _ => [key1, key2]

/-- The objects a sequence of calls registers, in order. -/
def registeredBy (calls : List RegisterCall) : List ButtonId := calls.flatMap RegisterCall.buttons

/-! ## The list -/

/-- The first registration and the rest. -/
theorem registerAll_cons (m : ButtonManage) (id : ButtonId) (ids : List ButtonId) :
    registerAll m (id :: ids) = (myButtonRegister m id).bind fun m' => registerAll m' ids :=
  List.foldlM_cons

theorem registerAll_append (m : ButtonManage) (xs ys : List ButtonId) :
    registerAll m (xs ++ ys) = (registerAll m xs).bind fun m' => registerAll m' ys := by
  rw [registerAll, List.foldlM_append]
  rfl

/-- Whatever is registered is appended. -/
theorem registerAll_buttonList {m m' : ButtonManage} {ids : List ButtonId}
    (h : registerAll m ids = some m') : m'.buttonList = m.buttonList ++ ids := by
  induction ids generalizing m with
  | nil =>
    obtain rfl := Option.some.inj h
    exact (List.append_nil _).symm
  | cons id ids ih =>
    rw [registerAll_cons, Option.bind_eq_some_iff] at h
    obtain ⟨m₁, hreg, hrest⟩ := h
    rw [ih hrest, (myButtonRegister_eq_some hreg).1, List.append_assoc]
    rfl

/-- The writes stay inside `button_list` exactly while there is room for every object. -/
theorem registerAll_isSome_iff {m : ButtonManage} (hm : m.buttonList.length ≤ myButtonListMax)
    (ids : List ButtonId) :
    (registerAll m ids).isSome ↔ m.buttonList.length + ids.length ≤ myButtonListMax := by
  induction ids generalizing m with
  | nil => exact iff_of_true rfl hm
  | cons id ids ih =>
    rw [registerAll_cons, List.length_cons]
    by_cases hroom : m.buttonList.length < myButtonListMax
    · obtain ⟨m₁, hreg⟩ : ∃ m₁, myButtonRegister m id = some m₁ := ⟨_, if_pos hroom⟩
      have hlen : m₁.buttonList.length = m.buttonList.length + 1 := by
        rw [(myButtonRegister_eq_some hreg).1, List.length_append, List.length_singleton]
      rw [hreg, Option.bind_some, ih (by omega), hlen]
      omega
    · have hreg : myButtonRegister m id = none := if_neg hroom
      rw [hreg, Option.bind_none]
      exact iff_of_false (by simp) (by omega)

/-! ## Sequences of calls -/

/-- `my_button_start` creates the timer and leaves the list alone. -/
theorem myButtonStart_buttonManage (created : Bool) (s : ButtonSystem) :
    (myButtonStart created s).1.toButtonManage = s.toButtonManage := by
  rw [myButtonStart]
  split_ifs <;> rfl

/-- A call registers its objects one after the other; the timer is apart. -/
theorem RegisterCall.run_buttonManage (s : ButtonSystem) (c : RegisterCall) :
    (c.run s).map (·.toButtonManage) = registerAll s.toButtonManage c.buttons := by
  cases c with
  | register button =>
    rw [RegisterCall.run, RegisterCall.buttons, registerAll_cons]
    cases myButtonRegister s.toButtonManage button <;> rfl
  | keyFun created =>
    rw [RegisterCall.run, RegisterCall.buttons, registerAll_cons, Button.keyFun]
    cases myButtonRegister s.toButtonManage key1 with
    | none => rfl
    | some m₁ =>
      rw [Option.bind_some, registerAll_cons]
      dsimp only
      cases myButtonRegister m₁ key2 with
      | none => rfl
      | some m₂ =>
        exact congrArg some (myButtonStart_buttonManage created { s with toButtonManage := m₂ })

/-- So the list only sees the registrations. -/
theorem runCalls_buttonManage (s : ButtonSystem) (calls : List RegisterCall) :
    (runCalls s calls).map (·.toButtonManage) =
      registerAll s.toButtonManage (registeredBy calls) := by
  induction calls generalizing s with
  | nil => rfl
  | cons c calls ih =>
    rw [registeredBy, List.flatMap_cons, registerAll_append, ← c.run_buttonManage, runCalls,
      List.foldlM_cons]
    cases c.run s with
    | none => rfl
    | some t => exact ih t

/-! ## One pass of the scan -/

/-- A button's step raises its counter by one, to the next 16-bit value, or clears it. -/
theorem buttonStep_cnt {id : ButtonId} {b b' : MyButton} {levels : PinLevels}
    {o : Option MyButtonEvent} (h : buttonStep id b levels = some (b', o)) :
    b'.cnt = b.cnt + 1 ∨ b'.cnt = 0 := by
  rw [buttonStep, scanButton] at h
  dsimp only at h
  split_ifs at h <;> simp only [Option.some.injEq, Prod.mk.injEq] at h <;> obtain ⟨rfl, -⟩ := h
  all_goals first | exact .inl rfl | exact .inr rfl

/-- One pass of `my_button_scan` advances no counter by more than one. -/
def AdvancesByOne (m : ButtonManage) : Prop :=
  ∀ objects levels m' outs,
    myButtonScan { m with objects := objects } levels = some (m', outs) →
      ∀ id, (m'.objects id).cnt.toNat ≤ (objects id).cnt.toNat + 1

/-- A button that is listed once is scanned once a pass. -/
theorem advancesByOne_of_nodup {m : ButtonManage} (h : m.buttonList.Nodup) : AdvancesByOne m := by
  intro objects levels m' outs hscan id
  rw [myButtonScan, Option.map_eq_some_iff] at hscan
  obtain ⟨⟨g, out⟩, hsweep, heq⟩ := hscan
  obtain ⟨rfl, rfl⟩ := Prod.mk.inj heq
  -- a button listed once takes one step, any other none
  by_cases hid : id ∈ m.buttonList
  · obtain ⟨o, hstep, -⟩ := Mealy.sweep_component h hsweep hid
    rcases buttonStep_cnt hstep with hcnt | hcnt
    · rw [show (g id).cnt = _ from hcnt, UInt16.toNat_add, UInt16.toNat_one]
      exact Nat.mod_le _ _
    · rw [show (g id).cnt = _ from hcnt]
      exact Nat.zero_le _
  · rw [show (g id).cnt = _ from congrArg MyButton.cnt (Mealy.sweep_frame hsweep hid).1]
    exact Nat.le_succ _

/-! ## The registrations that are safe -/

/-- What a sequence of calls must show: every write is inside `button_list`, `num` is at most its
size, no button is listed twice, and so a scan pass advances each counter by at most one. -/
def RegistrationSound (objects : ButtonId → MyButton) (calls : List RegisterCall) : Prop :=
  ∃ s, runCalls (initialSystem objects) calls = some s ∧
    s.buttonList.length ≤ myButtonListMax ∧ s.buttonList.Nodup ∧ AdvancesByOne s.toButtonManage

/-- A sequence of calls is safe exactly when it registers at most `MY_BUTTON_LIST_MAX` objects and
none of them twice. -/
theorem registrationSound_iff (objects : ButtonId → MyButton) (calls : List RegisterCall) :
    RegistrationSound objects calls ↔
      (registeredBy calls).length ≤ myButtonListMax ∧ (registeredBy calls).Nodup := by
  have hmanage := runCalls_buttonManage (initialSystem objects) calls
  have hsome := registerAll_isSome_iff (m := (initialSystem objects).toButtonManage)
    (Nat.zero_le _) (registeredBy calls)
  have hlist : ∀ s, runCalls (initialSystem objects) calls = some s →
      s.buttonList = registeredBy calls := by
    intro s hs
    rw [hs] at hmanage
    exact registerAll_buttonList hmanage.symm
  rw [← hmanage, Option.isSome_map] at hsome
  constructor
  · rintro ⟨s, hs, hlen, hnodup, -⟩
    rw [hlist s hs] at hlen hnodup
    exact ⟨hlen, hnodup⟩
  · rintro ⟨hlen, hnodup⟩
    obtain ⟨s, hs⟩ := Option.isSome_iff_exists.mp (hsome.mpr (by
      show 0 + _ ≤ _
      omega))
    rw [← hlist s hs] at hlen hnodup
    exact ⟨s, hs, hlen, hnodup, advancesByOne_of_nodup hnodup⟩

/-- Run twice, `key_fun` lists its buttons twice, and a pass that finds the first one pressed advances
its counter by two; run six times, it writes past the list. -/
theorem not_registrationSound_keyFun_twice :
    ¬RegistrationSound keyFunManage.objects [.keyFun true, .keyFun true] ∧
      (∃ s m' outs, runCalls (initialSystem keyFunManage.objects) [.keyFun true, .keyFun true] =
          some s ∧ s.buttonList = [key1, key2, key1, key2] ∧
        myButtonScan s.toButtonManage (fun _ => 0) = some (m', outs) ∧
        (s.objects key1).cnt = 0 ∧ (m'.objects key1).cnt = 2) ∧
      runCalls (initialSystem keyFunManage.objects) (List.replicate 6 (.keyFun true)) = none := by
  refine ⟨?_, ⟨_, _, _, rfl, rfl, rfl, rfl, rfl⟩, rfl⟩
  rintro ⟨s, hs, -, hnodup, -⟩
  obtain rfl := Option.some.inj hs
  exact absurd hnodup (by decide)

end Stm32Board.Button
