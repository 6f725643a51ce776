import Mathlib.Data.List.Basic
import Mathlib.Data.Option.Basic

/-!
# Machines that may refuse an event

`run` takes a list of events one by one. The rule for runs (`run_rule`) carries a property of the
events so far and of the state they lead to, under a condition that each step of the run meets. A
machine that does what another one does, or nothing that the other one can see, has its runs
(`Simulation.run_trace`); so has one whose steps are each several of the other (`run_expand`).
-/

namespace Stm32Board.Common.Transition

variable {σ τ ε ι : Type*}

def run (step : σ → ε → Option σ) (s : σ) (events : List ε) : Option σ := events.foldlM step s

/-- A condition that each step of a run meets, as far as it gets. -/
def Each (step : σ → ε → Option σ) (C : σ → ε → Prop) : σ → List ε → Prop
  | _, [] => True
  | s, e :: events => C s e ∧ ∀ s', step s e = some s' → Each step C s' events

instance Each.decidable (step : σ → ε → Option σ) (C : σ → ε → Prop) [∀ s e, Decidable (C s e)] :
    ∀ s events, Decidable (Each step C s events)
  | _, [] => isTrue trivial
  | s, e :: events =>
    match hstep : step s e with
    | none =>
      decidable_of_iff (C s e) ⟨fun h => ⟨h, fun _ h' => absurd (hstep ▸ h') nofun⟩, And.left⟩
    | some m =>
      have := Each.decidable step C m events
      decidable_of_iff (C s e ∧ Each step C m events)
        ⟨fun h => ⟨h.1, fun _ h' => Option.some.inj (hstep ▸ h') ▸ h.2⟩,
          fun h => ⟨h.1, h.2 m hstep⟩⟩

section Run

variable {step : σ → ε → Option σ} {s s' : σ} {C : σ → ε → Prop} {events : List ε}

/-- A run without events stays where it is. -/
theorem run_nil_eq_some : run step s [] = some s' ↔ s = s' := Option.some_inj

/-- A run is its first step and the rest. -/
theorem run_cons_eq_some {e : ε} :
    run step s (e :: events) = some s' ↔ ∃ m, step s e = some m ∧ run step m events = some s' := by
  unfold run
  rw [List.foldlM_cons, Option.bind_eq_bind, Option.bind_eq_some_iff]

/-- A run in two parts. -/
theorem run_append_eq_some {after : List ε} :
    run step s (events ++ after) = some s' ↔
      ∃ m, run step s events = some m ∧ run step m after = some s' := by
  unfold run
  rw [List.foldlM_append, Option.bind_eq_bind, Option.bind_eq_some_iff]

/-- A run that goes on from the events before it. -/
theorem run_rule_from {P : List ε → σ → Prop}
    (hstep : ∀ before s e s', P before s → C s e → step s e = some s' → P (before ++ [e]) s')
    {before : List ε} (hs : P before s) (heach : Each step C s events)
    (hrun : run step s events = some s') : P (before ++ events) s' := by
  induction events generalizing before s with
  | nil =>
    rw [List.append_nil, ← run_nil_eq_some.mp hrun]
    exact hs
  | cons e events ih =>
    obtain ⟨m, hm, hrun⟩ := run_cons_eq_some.mp hrun
    rw [List.append_cons before e events]
    exact ih (hstep before s e m hs heach.1 hm) (heach.2 m hm) hrun

/-- What one step keeps, whatever came before it, a run keeps. -/
theorem run_rule {P : List ε → σ → Prop}
    (hstep : ∀ before s e s', P before s → C s e → step s e = some s' → P (before ++ [e]) s')
    (hs : P [] s) (heach : Each step C s events) (hrun : run step s events = some s') :
    P events s' :=
  run_rule_from hstep hs heach hrun

/-- A condition on the events alone. -/
theorem each_of_forall (h : ∀ e ∈ events, ∀ s, C s e) (s : σ) : Each step C s events := by
  induction events generalizing s with
  | nil => trivial
  | cons e events ih =>
    exact ⟨h e List.mem_cons_self s, fun m _ => ih (fun e' he' => h e' (List.mem_cons_of_mem e he')) m⟩

theorem each_true (s : σ) (events : List ε) : Each step (fun _ _ => True) s events :=
  each_of_forall (fun _ _ _ => trivial) s

/-- What every step keeps holds at the end of a run. -/
theorem run_invariant {P : σ → Prop} (hstep : ∀ s e s', P s → step s e = some s' → P s') (hs : P s)
    (hrun : run step s events = some s') : P s' :=
  run_rule (P := fun _ => P) (fun _ s e s' hs _ => hstep s e s' hs) hs (each_true s events) hrun

end Run

/-! ## Simulation -/

/-- The events of another machine that a run stands for. -/
def trace (step : σ → ε → Option σ) (interp : σ → ε → Option ι) : σ → List ε → List ι
  | _, [] => []
  | s, e :: events =>
    (interp s e).toList ++ ((step s e).elim [] fun s' => trace step interp s' events)

/-- While `I` holds, a step is one of the other machine, or one that it cannot see. -/
structure Simulation (step : σ → ε → Option σ) (step' : τ → ι → Option τ) (I : σ → Prop)
    (abs : σ → τ) (interp : σ → ε → Option ι) : Prop where
  keep : ∀ s e s', I s → step s e = some s' → I s'
  silent : ∀ s e s', I s → step s e = some s' → interp s e = none → abs s' = abs s
  visible : ∀ s e s' e', I s → step s e = some s' → interp s e = some e' →
    step' (abs s) e' = some (abs s')

/-- What is in the trace was read off some step. -/
theorem mem_trace {step : σ → ε → Option σ} {interp : σ → ε → Option ι} {s : σ} {events : List ε}
    {e' : ι} (h : e' ∈ trace step interp s events) : ∃ e ∈ events, ∃ s, interp s e = some e' := by
  induction events generalizing s with
  | nil => exact absurd h List.not_mem_nil
  | cons e events ih =>
    rw [trace, List.mem_append, Option.mem_toList] at h
    rcases h with h | h
    · exact ⟨e, List.mem_cons_self, s, h⟩
    · cases hstep : step s e with
      | none =>
        rw [hstep] at h
        exact absurd h List.not_mem_nil
      | some m =>
        rw [hstep] at h
        obtain ⟨e, he, hinterp⟩ := ih h
        exact ⟨e, List.mem_cons_of_mem _ he, hinterp⟩

namespace Simulation

variable {step : σ → ε → Option σ} {step' : τ → ι → Option τ} {I : σ → Prop} {abs : σ → τ}
  {interp : σ → ε → Option ι} {s s' : σ} {events : List ε}

/-- A run of the one machine is a run of the other one. -/
theorem run_trace (h : Simulation step step' I abs interp) (hs : I s)
    (hrun : run step s events = some s') :
    run step' (abs s) (trace step interp s events) = some (abs s') := by
  induction events generalizing s with
  | nil => exact congrArg (fun m => some (abs m)) (run_nil_eq_some.mp hrun)
  | cons e events ih =>
    obtain ⟨m, hm, hrun⟩ := run_cons_eq_some.mp hrun
    have hih := ih (h.keep s e m hs hm) hrun
    rw [trace, hm, Option.elim_some]
    cases hinterp : interp s e with
    | none =>
      rw [Option.toList_none, List.nil_append, ← h.silent s e m hs hm hinterp]
      exact hih
    | some e' =>
      rw [Option.toList_some, List.singleton_append]
      exact run_cons_eq_some.mpr ⟨abs m, h.visible s e m e' hs hm hinterp, hih⟩

/-- A condition on the steps of the one is a condition on those of the other. -/
theorem each_trace (h : Simulation step step' I abs interp) {C : σ → ε → Prop} {C' : τ → ι → Prop}
    (hC : ∀ s e e', I s → C s e → interp s e = some e' → C' (abs s) e') (hs : I s)
    (heach : Each step C s events) (hrun : run step s events = some s') :
    Each step' C' (abs s) (trace step interp s events) := by
  induction events generalizing s with
  | nil => trivial
  | cons e events ih =>
    obtain ⟨m, hm, hrun⟩ := run_cons_eq_some.mp hrun
    have hih := ih (h.keep s e m hs hm) (heach.2 m hm) hrun
    rw [trace, hm, Option.elim_some]
    cases hinterp : interp s e with
    | none =>
      rw [Option.toList_none, List.nil_append, ← h.silent s e m hs hm hinterp]
      exact hih
    | some e' =>
      rw [Option.toList_some, List.singleton_append]
      refine ⟨hC s e e' hs heach.1 hinterp, fun m' hm' => ?_⟩
      rw [h.visible s e m e' hs hm hinterp] at hm'
      exact Option.some.inj hm' ▸ hih

/-- Events of one kind are as many. -/
theorem countP_trace {p : ι → Bool} {q : ε → Bool}
    (hpq : ∀ s e, (interp s e).toList.countP p = [e].countP q)
    (hrun : run step s events = some s') :
    (trace step interp s events).countP p = events.countP q := by
  induction events generalizing s with
  | nil => rfl
  | cons e events ih =>
    obtain ⟨m, hm, hrun⟩ := run_cons_eq_some.mp hrun
    rw [trace, hm, Option.elim_some, List.countP_append, hpq, ih hrun, ← List.countP_append]
    rfl

end Simulation

/-! ## Steps that are several of another machine -/

/-- The events of another machine that a run stands for, when each step stands for a list of them. -/
def expand (step : σ → ε → Option σ) (parts : σ → ε → σ → List ι) : σ → List ε → List ι
  | _, [] => []
  | s, e :: events =>
    (step s e).elim [] fun s' => parts s e s' ++ expand step parts s' events

section Expand

variable {step : σ → ε → Option σ} {step' : τ → ι → Option τ} {I : σ → Prop} {abs : σ → τ}
  {parts : σ → ε → σ → List ι} {s s' : σ} {events : List ε}

/-- A run of the one machine is a run of the other one. -/
theorem run_expand (hkeep : ∀ s e s', I s → step s e = some s' → I s')
    (hparts : ∀ s e s', I s → step s e = some s' → run step' (abs s) (parts s e s') = some (abs s'))
    (hs : I s) (hrun : run step s events = some s') :
    run step' (abs s) (expand step parts s events) = some (abs s') := by
  induction events generalizing s with
  | nil => exact congrArg (fun m => some (abs m)) (run_nil_eq_some.mp hrun)
  | cons e events ih =>
    obtain ⟨m, hm, hrun⟩ := run_cons_eq_some.mp hrun
    rw [expand, hm, Option.elim_some]
    exact run_append_eq_some.mpr ⟨abs m, hparts s e m hs hm, ih (hkeep s e m hs hm) hrun⟩

/-- What grows with each step by the events of one kind that it stands for. -/
theorem count_expand [DecidableEq ι] {f : σ → ℕ} {e' : ι}
    (hkeep : ∀ s e s', I s → step s e = some s' → I s')
    (hcount : ∀ s e s', I s → step s e = some s' → f s' = f s + (parts s e s').count e') (hs : I s)
    (hrun : run step s events = some s') : f s' = f s + (expand step parts s events).count e' := by
  induction events generalizing s with
  | nil => rw [run_nil_eq_some.mp hrun, expand, List.count_nil, Nat.add_zero]
  | cons e events ih =>
    obtain ⟨m, hm, hrun⟩ := run_cons_eq_some.mp hrun
    rw [expand, hm, Option.elim_some, List.count_append, ih (hkeep s e m hs hm) hrun,
      hcount s e m hs hm, Nat.add_assoc]

end Expand

end Stm32Board.Common.Transition
