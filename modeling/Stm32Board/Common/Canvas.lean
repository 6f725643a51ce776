import Mathlib.Data.Set.Basic

/-!
# Canvases

A canvas gives every place a colour. `PaintsOn` says that a drawing operation changes a canvas place
by place, and only inside a mask; such operations compose, and cutting the mask cuts the result.
`InSync` relates what is shown to what should be shown, up to a set of places still to be redrawn.
-/

namespace Stm32Board.Common

variable {α β : Type*}

/-- `draw` works place by place inside `mask`, as `ink` says, and leaves the rest alone. -/
structure PaintsOn (mask : Set α) (ink : α → β → β) (draw : (α → β) → α → β) : Prop where
  inside : ∀ canvas, ∀ a ∈ mask, draw canvas a = ink a (canvas a)
  outside : ∀ canvas, ∀ a ∉ mask, draw canvas a = canvas a

namespace PaintsOn

variable {mask mask' : Set α} {ink ink' : α → β → β} {draw draw' : (α → β) → α → β}

theorem id (mask : Set α) : PaintsOn mask (fun _ (b : β) => b) fun canvas => canvas :=
  ⟨fun _ _ _ => rfl, fun _ _ _ => rfl⟩

theorem comp (h : PaintsOn mask ink draw) (h' : PaintsOn mask ink' draw') :
    PaintsOn mask (fun a b => ink' a (ink a b)) fun canvas => draw' (draw canvas) where
  inside canvas a ha := by rw [h'.inside _ a ha, h.inside _ a ha]
  outside canvas a ha := by rw [h'.outside _ a ha, h.outside _ a ha]

/-- Inks that agree on the mask describe the same painting. -/
theorem congr (h : PaintsOn mask ink draw) (hink : ∀ a ∈ mask, ∀ b, ink a b = ink' a b) :
    PaintsOn mask ink' draw where
  inside canvas a ha := by rw [h.inside _ a ha, hink a ha]
  outside := h.outside

/-- Painting through a smaller mask, seen through a larger one. -/
theorem widen (h : PaintsOn mask ink draw) (hsub : mask ⊆ mask')
    (hin : ∀ a ∈ mask, ∀ b, ink' a b = ink a b)
    (hout : ∀ a ∈ mask', a ∉ mask → ∀ b, ink' a b = b) : PaintsOn mask' ink' draw where
  inside canvas a ha := by
    by_cases hmem : a ∈ mask
    · rw [h.inside _ a hmem, hin a hmem]
    · rw [h.outside _ a hmem, hout a ha hmem]
  outside canvas a ha := h.outside _ a fun hmem => ha (hsub hmem)

/-- One painting for each item of a list. -/
theorem foldl {γ : Type*} {ink : γ → α → β → β} {draw : γ → (α → β) → α → β} {xs : List γ}
    (h : ∀ x ∈ xs, PaintsOn mask (ink x) (draw x)) :
    PaintsOn mask (fun a b => xs.foldl (fun b x => ink x a b) b)
      fun canvas => xs.foldl (fun canvas x => draw x canvas) canvas := by
  induction xs with
  | nil => exact PaintsOn.id mask
  | cons x xs ih =>
    obtain ⟨hx, hrest⟩ := List.forall_mem_cons.mp h
    exact hx.comp (ih hrest)

end PaintsOn

/-- Steps that end the same, one of which forgets what was there before it. -/
theorem foldl_eq_of_mem {γ : Type*} {f : β → γ → β} {xs : List γ} {x : γ} (hx : x ∈ xs)
    (hf : ∀ b b', f b x = f b' x) (b b' : β) : xs.foldl f b = xs.foldl f b' := by
  obtain ⟨before, after, rfl⟩ := List.append_of_mem hx
  rw [List.foldl_append, List.foldl_append, List.foldl_cons, List.foldl_cons, hf]

/-- `draw` paints the same through each mask, and only inside a frame. -/
structure Figure {ι : Type*} (mask : ι → Set α) (frame : Set α) (ink : α → β → β)
    (draw : ι → (α → β) → α → β) : Prop where
  paints : ∀ i, PaintsOn (mask i) ink (draw i)
  outside : ∀ a ∉ frame, ∀ b, ink a b = b

namespace Figure

variable {ι : Type*} {mask : ι → Set α} {frame : Set α} {ink ink' : α → β → β}
  {draw draw' : ι → (α → β) → α → β}

theorem id (mask : ι → Set α) (frame : Set α) :
    Figure mask frame (fun _ (b : β) => b) fun _ canvas => canvas :=
  ⟨fun i => PaintsOn.id (mask i), fun _ _ _ => rfl⟩

/-- One figure over another. -/
theorem comp (h : Figure mask frame ink draw) (h' : Figure mask frame ink' draw') :
    Figure mask frame (fun a b => ink' a (ink a b)) fun i canvas => draw' i (draw i canvas) where
  paints i := (h.paints i).comp (h'.paints i)
  outside a ha b := by rw [h'.outside a ha, h.outside a ha]

/-- A figure that depends on a condition. -/
theorem ite {c : Prop} [Decidable c] (h : c → Figure mask frame ink draw)
    (h' : ¬c → Figure mask frame ink' draw') :
    Figure mask frame (fun a b => if c then ink a b else ink' a b)
      fun i canvas => if c then draw i canvas else draw' i canvas := by
  by_cases hc : c
  · simpa only [hc, if_true] using h hc
  · simpa only [hc, if_false] using h' hc

/-- Figures one over the other. -/
theorem foldl {γ : Type*} {ink : γ → α → β → β} {draw : γ → ι → (α → β) → α → β} {xs : List γ}
    (h : ∀ x ∈ xs, Figure mask frame (ink x) (draw x)) :
    Figure mask frame (fun a b => xs.foldl (fun b x => ink x a b) b)
      fun i canvas => xs.foldl (fun canvas x => draw x i canvas) canvas where
  paints i := PaintsOn.foldl fun x hx => (h x hx).paints i
  outside a ha b := by
    induction xs with
    | nil => rfl
    | cons x xs ih =>
      obtain ⟨hx, hrest⟩ := List.forall_mem_cons.mp h
      rw [List.foldl_cons, hx.outside a ha]
      exact ih hrest

/-- Masks that the frame does not meet may be left out. -/
theorem skip (h : Figure mask frame ink draw) {meets : ι → Bool}
    (hmeets : ∀ i a, a ∈ mask i → a ∈ frame → meets i = true) :
    Figure mask frame ink fun i canvas => if meets i = true then draw i canvas else canvas where
  paints i := by
    by_cases hi : meets i = true
    · simpa only [hi, if_true] using h.paints i
    · simp only [hi]
      exact (PaintsOn.id (mask i)).congr fun a ha b =>
        (h.outside a (fun hframe => hi (hmeets i a ha hframe)) b).symm
  outside := h.outside

/-- The ink of a figure is what it paints through a mask that leaves nothing out. -/
theorem paintsOn_whole (h : Figure mask frame ink draw) {whole : ι} {i : ι}
    (hsub : mask i ⊆ mask whole) :
    PaintsOn (mask i) (fun a b => draw whole (fun _ => b) a) (draw i) :=
  (h.paints i).congr fun a ha b => ((h.paints whole).inside (fun _ => b) a (hsub ha)).symm

end Figure

/-- On the screen, what is shown is what should be shown, except where it is still pending. -/
def InSync (screen : Set α) (shown view : α → β) (pending : Set α) : Prop :=
  ∀ a ∈ screen, a ∉ pending → shown a = view a

namespace InSync

variable {screen pending pending' dirty : Set α} {shown shown' view view' : α → β}

theorem mono (h : InSync screen shown view pending) (hsub : pending ∩ screen ⊆ pending') :
    InSync screen shown view pending' :=
  fun a ha hout => h a ha fun hin => hout (hsub ⟨hin, ha⟩)

/-- A change of the view is absorbed by marking where it shows. -/
theorem edit (h : InSync screen shown view pending)
    (hview : ∀ a ∈ screen, a ∉ dirty → view' a = view a) :
    InSync screen shown view' (pending ∪ dirty) := by
  intro a ha hout
  rw [Set.mem_union, not_or] at hout
  rw [h a ha hout.1, hview a ha hout.2]

/-- Redrawing what is pending, and anything else as it should be, leaves nothing pending. -/
theorem redraw (h : InSync screen shown view pending) {drawn : Set α} (hsub : pending ∩ screen ⊆ drawn)
    (hin : ∀ a ∈ drawn, shown' a = view a) (hout : ∀ a ∉ drawn, shown' a = shown a) :
    InSync screen shown' view ∅ := by
  intro a ha _
  by_cases hmem : a ∈ drawn
  · exact hin a hmem
  · rw [hout a hmem]
    exact h a ha fun hpending => hmem (hsub ⟨hpending, ha⟩)

end InSync

end Stm32Board.Common
