import Mathlib.Data.List.Basic
import Mathlib.Data.List.Nodup
import Mathlib.Data.Option.Basic
import Mathlib.Logic.Function.Basic

/-!
# Partial Mealy machines and lockstep sweeps

`Mealy.run` feeds a list of inputs to a machine whose step may be undefined. `Mealy.sweep` advances
a keyed family of machines once each, in the order of a list of keys. When no key is repeated, a run
of sweeps is, seen from one key, the run of that key's machine alone (`run_sweep_component`), and it
is defined exactly when every component run is (`run_sweep_isSome_iff`).
-/

namespace Stm32Board.Common.Mealy

variable {σ ι ο κ : Type*}

/-- Run a partial machine over a list of inputs, collecting one output per input. -/
def run (step : σ → ι → Option (σ × ο)) : σ → List ι → Option (σ × List ο)
  | s, [] => some (s, [])
  | s, i :: is =>
    match step s i with
    | none => none
    | some (s', o) =>
      match run step s' is with
      | none => none
      | some (t, os) => some (t, o :: os)

/-- A run is its first step and the rest. -/
theorem run_cons_eq_some {step : σ → ι → Option (σ × ο)} {s t : σ} {i : ι} {is : List ι}
    {os : List ο} :
    run step s (i :: is) = some (t, os) ↔
      ∃ s' o os', step s i = some (s', o) ∧ run step s' is = some (t, os') ∧ os = o :: os' := by
  constructor
  · intro h
    rw [run] at h
    split at h
    · exact absurd h (by simp)
    · rename_i s' o hstep
      split at h
      · exact absurd h (by simp)
      · rename_i t' os' hrun
        simp only [Option.some.injEq, Prod.mk.injEq] at h
        obtain ⟨rfl, rfl⟩ := h
        exact ⟨s', o, os', hstep, hrun, rfl⟩
  · rintro ⟨s', o, os', hstep, hrun, rfl⟩
    simp only [run, hstep, hrun]

/-- A run over a concatenation is a run over the first part followed by a run over the second. -/
theorem run_append_eq_some {step : σ → ι → Option (σ × ο)} {s t : σ} {xs ys : List ι}
    {os : List ο} :
    run step s (xs ++ ys) = some (t, os) ↔
      ∃ m os₁ os₂, run step s xs = some (m, os₁) ∧ run step m ys = some (t, os₂) ∧
        os = os₁ ++ os₂ := by
  induction xs generalizing s os with
  | nil => simp [run]
  | cons i is ih =>
    rw [List.cons_append, run_cons_eq_some]
    constructor
    · rintro ⟨s', o, os', hstep, hrun, rfl⟩
      obtain ⟨m, os₁, os₂, h₁, h₂, rfl⟩ := ih.mp hrun
      exact ⟨m, o :: os₁, os₂, run_cons_eq_some.mpr ⟨s', o, os₁, hstep, h₁, rfl⟩, h₂, rfl⟩
    · rintro ⟨m, os₁, os₂, h₁, h₂, rfl⟩
      obtain ⟨s', o, os', hstep, h₁', rfl⟩ := run_cons_eq_some.mp h₁
      exact ⟨s', o, os' ++ os₂, hstep, ih.mpr ⟨m, os', os₂, h₁', h₂, rfl⟩, rfl⟩

/-- The last step of a run. -/
theorem run_concat_eq_some {step : σ → ι → Option (σ × ο)} {s t : σ} {is : List ι} {i : ι}
    {os : List ο} :
    run step s (is ++ [i]) = some (t, os) ↔
      ∃ m os' o, run step s is = some (m, os') ∧ step m i = some (t, o) ∧ os = os' ++ [o] := by
  rw [run_append_eq_some]
  constructor
  · rintro ⟨m, os₁, os₂, h₁, h₂, rfl⟩
    obtain ⟨s', o, os', hstep, hnil, rfl⟩ := run_cons_eq_some.mp h₂
    obtain ⟨rfl, rfl⟩ := Prod.mk.inj (Option.some.inj hnil)
    exact ⟨m, os₁, o, h₁, hstep, rfl⟩
  · rintro ⟨m, os', o, h₁, hstep, rfl⟩
    exact ⟨m, os', [o], h₁, run_cons_eq_some.mpr ⟨t, o, [], hstep, rfl, rfl⟩, rfl⟩

/-- One output per input. -/
theorem length_of_run {step : σ → ι → Option (σ × ο)} {s t : σ} {is : List ι} {os : List ο}
    (h : run step s is = some (t, os)) : os.length = is.length := by
  induction is generalizing s os with
  | nil =>
    simp only [run, Option.some.injEq, Prod.mk.injEq] at h
    rw [← h.2]; rfl
  | cons i is ih =>
    obtain ⟨s', o, os', -, hrun, rfl⟩ := run_cons_eq_some.mp h
    rw [List.length_cons, List.length_cons, ih hrun]

/-- A state predicate kept by every step is kept by every run. -/
theorem run_invariant {step : σ → ι → Option (σ × ο)} (P : σ → Prop)
    (hstep : ∀ s i s' o, P s → step s i = some (s', o) → P s')
    {s t : σ} {is : List ι} {os : List ο} (hs : P s) (h : run step s is = some (t, os)) : P t := by
  induction is generalizing s os with
  | nil =>
    simp only [run, Option.some.injEq, Prod.mk.injEq] at h
    exact h.1 ▸ hs
  | cons i is ih =>
    obtain ⟨s', o, os', h₁, h₂, -⟩ := run_cons_eq_some.mp h
    exact ih (hstep s i s' o hs h₁) h₂

/-! ## Predicates on histories -/

/-- `P` holds of every entry of the list, given the entries before it. -/
def AtEach {α : Type*} (P : List α → α → Prop) (l : List α) : Prop :=
  ∀ before a after, l = before ++ a :: after → P before a

/-- Nothing is asked of an empty list. -/
theorem atEach_nil {α : Type*} (P : List α → α → Prop) : AtEach P [] := by
  intro before a after h
  exact absurd h (by simp)

/-- A list satisfies an entrywise predicate when its front does and its last entry does. -/
theorem atEach_concat {α : Type*} {P : List α → α → Prop} {l : List α} {a : α} :
    AtEach P (l ++ [a]) ↔ AtEach P l ∧ P l a := by
  constructor
  · intro h
    exact ⟨fun before b after hl => h before b (after ++ [a]) (by simp [hl]), h l a [] rfl⟩
  · rintro ⟨hl, ha⟩ before b after heq
    rcases List.eq_nil_or_concat' after with rfl | ⟨after', c, rfl⟩
    · obtain ⟨rfl, rfl⟩ := List.append_singleton_inj.mp heq
      exact ha
    · rw [← List.cons_append, ← List.append_assoc] at heq
      exact hl before b after' (List.append_singleton_inj.mp heq).1

/-- A predicate on histories passes to the fronts of a list. -/
theorem AtEach.of_append {α : Type*} {P : List α → α → Prop} {xs ys : List α}
    (h : AtEach P (xs ++ ys)) : AtEach P xs := by
  intro before a after hxs
  exact h before a (after ++ ys) (by simp [hxs])

/-! ## Sweeps over a keyed family -/

variable [DecidableEq κ]

/-- Advance the machine of every listed key once, in order, tagging each output with its key. -/
def sweep (step : κ → σ → Option (σ × ο)) : List κ → (κ → σ) → Option ((κ → σ) × List (κ × ο))
  | [], f => some (f, [])
  | k :: ks, f =>
    match step k (f k) with
    | none => none
    | some (s, o) =>
      match sweep step ks (Function.update f k s) with
      | none => none
      | some (g, os) => some (g, (k, o) :: os)

/-- A sweep is the machine of the first key and the rest. -/
theorem sweep_cons_eq_some {step : κ → σ → Option (σ × ο)} {k : κ} {ks : List κ} {f g : κ → σ}
    {os : List (κ × ο)} :
    sweep step (k :: ks) f = some (g, os) ↔
      ∃ s o os', step k (f k) = some (s, o) ∧
        sweep step ks (Function.update f k s) = some (g, os') ∧ os = (k, o) :: os' := by
  constructor
  · intro h
    rw [sweep] at h
    split at h
    · exact absurd h (by simp)
    · rename_i s o hstep
      split at h
      · exact absurd h (by simp)
      · rename_i g' os' hrest
        simp only [Option.some.injEq, Prod.mk.injEq] at h
        obtain ⟨rfl, rfl⟩ := h
        exact ⟨s, o, os', hstep, hrest, rfl⟩
  · rintro ⟨s, o, os', hstep, hrest, rfl⟩
    simp only [sweep, hstep, hrest]

/-- A key that is not swept keeps its state and produces no output. -/
theorem sweep_frame {step : κ → σ → Option (σ × ο)} {ks : List κ} {f g : κ → σ}
    {os : List (κ × ο)} (h : sweep step ks f = some (g, os)) {k : κ} (hk : k ∉ ks) :
    g k = f k ∧ os.filter (·.1 = k) = [] := by
  induction ks generalizing f os with
  | nil =>
    simp only [sweep, Option.some.injEq, Prod.mk.injEq] at h
    obtain ⟨rfl, rfl⟩ := h
    exact ⟨rfl, rfl⟩
  | cons j js ih =>
    obtain ⟨s, o, os', -, hrest, rfl⟩ := sweep_cons_eq_some.mp h
    have hkj : k ≠ j := fun he => hk (he ▸ List.mem_cons_self)
    obtain ⟨hg, hos⟩ := ih hrest fun hm => hk (List.mem_cons_of_mem _ hm)
    refine ⟨by rw [hg, Function.update_of_ne hkj], ?_⟩
    rw [List.filter_cons_of_neg (by simpa using hkj.symm), hos]

/-- A key swept once makes exactly its own step, whatever the other keys do. -/
theorem sweep_component {step : κ → σ → Option (σ × ο)} {ks : List κ} {f g : κ → σ}
    {os : List (κ × ο)} (hnodup : ks.Nodup) (h : sweep step ks f = some (g, os)) {k : κ}
    (hk : k ∈ ks) :
    ∃ o, step k (f k) = some (g k, o) ∧ os.filter (·.1 = k) = [(k, o)] := by
  induction ks generalizing f os with
  | nil => exact absurd hk List.not_mem_nil
  | cons j js ih =>
    obtain ⟨hj, hjs⟩ := List.nodup_cons.mp hnodup
    obtain ⟨s, o, os', hstep, hrest, rfl⟩ := sweep_cons_eq_some.mp h
    -- the key is swept now, and not again; or later, and not now
    rcases List.mem_cons.mp hk with rfl | hk'
    · obtain ⟨hg, hos⟩ := sweep_frame hrest hj
      refine ⟨o, by rw [hg, Function.update_self, hstep], ?_⟩
      rw [List.filter_cons_of_pos (by simp), hos]
    · have hkj : k ≠ j := fun he => hj (he ▸ hk')
      obtain ⟨o', ho', hos⟩ := ih hjs hrest hk'
      rw [Function.update_of_ne hkj] at ho'
      exact ⟨o', ho', by rw [List.filter_cons_of_neg (by simpa using hkj.symm), hos]⟩

/-- A sweep without repetition is defined exactly when every swept machine can step. -/
theorem sweep_isSome_iff {step : κ → σ → Option (σ × ο)} {ks : List κ} (hnodup : ks.Nodup)
    (f : κ → σ) :
    (sweep step ks f).isSome ↔ ∀ k ∈ ks, (step k (f k)).isSome := by
  induction ks generalizing f with
  | nil => simp [sweep]
  | cons j js ih =>
    obtain ⟨hj, hjs⟩ := List.nodup_cons.mp hnodup
    -- the step of one key is not seen by the others
    have hsame : ∀ s, (∀ k ∈ js, (step k (Function.update f j s k)).isSome) ↔
        ∀ k ∈ js, (step k (f k)).isSome := by
      intro s
      refine forall₂_congr fun k hk => ?_
      have hkj : k ≠ j := fun he => hj (he ▸ hk)
      rw [Function.update_of_ne hkj]
    constructor
    · intro h
      obtain ⟨⟨g, os⟩, h⟩ := Option.isSome_iff_exists.mp h
      obtain ⟨s, o, os', hstep, hrest, -⟩ := sweep_cons_eq_some.mp h
      have hjs' := (hsame s).mp ((ih hjs _).mp (by simp [hrest]))
      exact List.forall_mem_cons.mpr ⟨by simp [hstep], hjs'⟩
    · intro h
      obtain ⟨hj', hjs'⟩ := List.forall_mem_cons.mp h
      obtain ⟨⟨s, o⟩, hstep⟩ := Option.isSome_iff_exists.mp hj'
      obtain ⟨⟨g, os⟩, hrest⟩ :=
        Option.isSome_iff_exists.mp ((ih hjs _).mpr ((hsame s).mpr hjs'))
      exact Option.isSome_iff_exists.mpr
        ⟨_, sweep_cons_eq_some.mpr ⟨s, o, os, hstep, hrest, rfl⟩⟩

/-- The sweep as one step of a machine over the whole family. -/
def sweepStep (step : κ → σ → ι → Option (σ × ο)) (ks : List κ) (f : κ → σ) (i : ι) :
    Option ((κ → σ) × List (κ × ο)) :=
  sweep (fun k s => step k s i) ks f

/-- Seen from one key, a run of sweeps is the run of that key's machine. -/
theorem run_sweep_component {step : κ → σ → ι → Option (σ × ο)} {ks : List κ} {f g : κ → σ}
    {is : List ι} {outs : List (List (κ × ο))} (hnodup : ks.Nodup)
    (h : run (sweepStep step ks) f is = some (g, outs)) {k : κ} (hk : k ∈ ks) :
    ∃ os, run (step k) (f k) is = some (g k, os) ∧
      outs.map (·.filter (·.1 = k)) = os.map fun o => [(k, o)] := by
  induction is generalizing f outs with
  | nil =>
    simp only [run, Option.some.injEq, Prod.mk.injEq] at h
    obtain ⟨rfl, rfl⟩ := h
    exact ⟨[], rfl, rfl⟩
  | cons i is ih =>
    obtain ⟨f', out, outs', hsweep, hrest, rfl⟩ := run_cons_eq_some.mp h
    obtain ⟨o, hstep, hout⟩ := sweep_component hnodup hsweep hk
    obtain ⟨os, hrun, houts⟩ := ih hrest
    refine ⟨o :: os, run_cons_eq_some.mpr ⟨f' k, o, os, hstep, hrun, rfl⟩, ?_⟩
    rw [List.map_cons, List.map_cons, hout, houts]

/-- A run of sweeps is defined exactly when the run of every swept machine is. -/
theorem run_sweep_isSome_iff {step : κ → σ → ι → Option (σ × ο)} {ks : List κ}
    (hnodup : ks.Nodup) (f : κ → σ) (is : List ι) :
    (run (sweepStep step ks) f is).isSome ↔ ∀ k ∈ ks, (run (step k) (f k) is).isSome := by
  induction is generalizing f with
  | nil => simp [run]
  | cons i is ih =>
    constructor
    · intro h k hk
      obtain ⟨⟨g, outs⟩, h⟩ := Option.isSome_iff_exists.mp h
      obtain ⟨os, hrun, -⟩ := run_sweep_component hnodup h hk
      simp [hrun]
    · intro h
      have hstep : ∀ k ∈ ks, (step k (f k) i).isSome := by
        intro k hk
        obtain ⟨⟨t, os⟩, hrun⟩ := Option.isSome_iff_exists.mp (h k hk)
        obtain ⟨s', o, -, hs, -, -⟩ := run_cons_eq_some.mp hrun
        simp [hs]
      obtain ⟨⟨f', out⟩, hsweep⟩ : ∃ p, sweepStep step ks f i = some p :=
        Option.isSome_iff_exists.mp ((sweep_isSome_iff hnodup f).mpr hstep)
      have hrest : ∀ k ∈ ks, (run (step k) (f' k) is).isSome := by
        intro k hk
        obtain ⟨o, ho, -⟩ := sweep_component hnodup hsweep hk
        obtain ⟨⟨t, os⟩, hrun⟩ := Option.isSome_iff_exists.mp (h k hk)
        obtain ⟨s', o', os', hs, hr, -⟩ := run_cons_eq_some.mp hrun
        have he : (f' k, o) = (s', o') := Option.some.inj (ho.symm.trans hs)
        rw [(Prod.mk.inj he).1, hr]
        rfl
      obtain ⟨⟨g, outs⟩, hrun⟩ := Option.isSome_iff_exists.mp ((ih f').mpr hrest)
      exact Option.isSome_iff_exists.mpr
        ⟨_, run_cons_eq_some.mpr ⟨f', out, outs, hsweep, hrun, rfl⟩⟩

end Stm32Board.Common.Mealy
