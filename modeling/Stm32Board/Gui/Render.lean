import Stm32Board.Gui.Rect

/-!
# What the objects look like

`LvObj.look` is the colour an object and its children give a pixel, with no mask, buffer or area in
sight: the painter's algorithm at one pixel. `lv_refr_obj` paints that through its mask
(`lvRefrObj_paints`), and starting from the topmost object that covers the mask, as the refresh does,
leaves the same picture as drawing the whole screen (`lvRefrObjAndChildren_eq`).
-/

namespace Stm32Board.Gui

open Common Lcd

variable {ω : Type}

/-- What the library relies on in its design callbacks, for the objects that are `ok`: they draw pixel by
pixel and only on the mask, and an opaque object that claims to cover an area leaves nothing of what was
there. -/
structure DesignContract (D : Design ω) (ok : ObjHead ω → Prop)
    (ink : ObjHead ω → UInt8 → LvDesign → Pixel → UInt16 → UInt16) : Prop where
  paints : ∀ {h}, ok h → ∀ scale mask mode,
    PaintsOn (pixels mask) (ink h scale mode) (D.draw h scale mask mode)
  covers : ∀ {h scale area}, ok h → h.bodyOpa = lvOpaCover → scale = lvOpaCover →
    D.coverChk h scale area = true → ∀ {p}, area.Contains p → ∀ b b',
      ink h scale .drawMain p b = ink h scale .drawMain p b'

/-- A mask that leaves nothing out. -/
def wholeMask : LvArea := ⟨-32768, -32768, 32767, 32767⟩

/-- What a design callback leaves at a pixel. -/
def Design.ink (D : Design ω) (h : ObjHead ω) (scale : UInt8) (mode : LvDesign) (p : Pixel)
    (b : UInt16) : UInt16 :=
  D.draw h scale wholeMask mode (fun _ => b) p

/-- The whole mask holds every other one. -/
theorem pixels_subset_wholeMask (mask : LvArea) : pixels mask ⊆ pixels wholeMask :=
  pixels_subset_of_toInt mask.x1.le_toInt mask.y1.le_toInt
    (Int.le_of_lt_add_one mask.x2.toInt_lt) (Int.le_of_lt_add_one mask.y2.toInt_lt)

/-- Basic objects keep the contract. -/
theorem lvObjDesign_contract (parts : RoundedParts) :
    DesignContract (lvObjDesign parts) PlainRect (lvObjDesign parts).ink where
  paints {h} hrect scale mask mode := by
    cases mode with
    | drawMain =>
      obtain ⟨ink, hfigure, -⟩ := lvDrawRect_figure hrect parts scale
      exact hfigure.paintsOn_whole (pixels_subset_wholeMask mask)
    | drawPost => exact PaintsOn.id _
  covers {h scale area} hrect hopa hscale hcover p hp b b' := by
    obtain ⟨ink, hfigure, hcovers⟩ := lvDrawRect_figure hrect parts scale
    have hin : lvAreaIsIn area h.coords = true := by
      unfold lvObjDesign at hcover
      simp only [Bool.and_eq_true] at hcover
      exact hcover.1.1.1.1
    have hwhole := pixels_subset_wholeMask area hp
    have hink : ∀ c, (lvObjDesign parts).ink h scale .drawMain p c = ink p c :=
      fun c => (hfigure.paints wholeMask).inside (fun _ => c) p hwhole
    rw [hink, hink]
    exact hcovers hopa hscale p (contains_of_lvAreaIsIn hin hp) b b'

variable (ok : ObjHead ω → Prop) (ink : ObjHead ω → UInt8 → LvDesign → Pixel → UInt16 → UInt16)

mutual

/-- The colour an object leaves at a pixel that had colour `b`. -/
def LvObj.look (par : UInt8) : LvObj ω → Pixel → UInt16 → UInt16
  | .mk h children, p, b =>
    if h.hidden = false ∧ h.extArea.Contains p then
      let scale := h.getOpaScale par
      let main := ink h scale .drawMain p b
      ink h scale .drawPost p
        (if h.coords.Contains p then lookAll scale children p main else main)
    else b

/-- The colour a list of siblings leaves at a pixel, the last one drawn first. -/
def lookAll (scale : UInt8) : List (LvObj ω) → Pixel → UInt16 → UInt16
  | [], _, b => b
  | child :: older, p, b => child.look scale p (lookAll scale older p b)

end

/-- Older siblings are drawn first. -/
theorem lookAll_append (scale : UInt8) (xs ys : List (LvObj ω)) (p : Pixel) (b : UInt16) :
    lookAll ink scale (xs ++ ys) p b = lookAll ink scale xs p (lookAll ink scale ys p b) := by
  induction xs with
  | nil => rfl
  | cons x xs ih => rw [List.cons_append, lookAll, lookAll, ih]

/-- Siblings drawn from the nearest to the youngest. -/
theorem lookAll_reverse (scale : UInt8) (prev : List (LvObj ω)) (p : Pixel) (b : UInt16) :
    lookAll ink scale prev.reverse p b = prev.foldl (fun b i => i.look ink scale p b) b := by
  induction prev generalizing b with
  | nil => rfl
  | cons i prev ih =>
    rw [List.reverse_cons, lookAll_append, ih]
    rfl

/-- Nothing shows of an object that is hidden or elsewhere. -/
theorem LvObj.look_eq_self {ink : ObjHead ω → UInt8 → LvDesign → Pixel → UInt16 → UInt16}
    {o : LvObj ω} {p : Pixel} (h : ¬(o.head.hidden = false ∧ o.head.extArea.Contains p))
    (par : UInt8) (b : UInt16) : o.look ink par p b = b := by
  cases o
  unfold LvObj.look
  exact if_neg h

/-! ## Drawing through a mask -/

mutual

/-- Every object is `ok`, and its padding goes outwards and stays inside the range of a coordinate. -/
def LvObj.Placed : LvObj ω → Prop
  | .mk h children => ok h ∧ lvAreaIsIn h.coords h.extArea = true ∧ AllPlaced children

def AllPlaced : List (LvObj ω) → Prop
  | [] => True
  | child :: older => child.Placed ∧ AllPlaced older

end

/-- Drawing on the common part of a mask and an area, if there is one, seen on a part of the mask that
holds it. -/
theorem paintsOn_intersect {draw : Canvas → Canvas} {look : Pixel → UInt16 → UInt16}
    {mask area : LvArea} {S : Set Pixel} (hS : S ⊆ pixels mask)
    (hcommon : pixels (lvAreaIntersect mask area).1 ⊆ S)
    (h : PaintsOn (pixels (lvAreaIntersect mask area).1) look draw) :
    PaintsOn S (fun p b => if area.Contains p then look p b else b)
      fun canvas => if (lvAreaIntersect mask area).2 = true then draw canvas else canvas := by
  by_cases hok : (lvAreaIntersect mask area).2 = true
  · simp only [hok, if_true]
    refine h.widen hcommon (fun p hp b => ?_) fun p hp hout b => ?_
    · exact if_pos (contains_lvAreaIntersect.mp hp).2
    · exact if_neg fun harea => hout (contains_lvAreaIntersect.mpr ⟨hS hp, harea⟩)
  · simp only [hok]
    refine (PaintsOn.id _).congr fun p hp b => (if_neg fun harea => hok ?_).symm
    exact lvAreaIntersect_ok_of_contains (hS hp) harea

/-- The common part is part of the mask. -/
theorem pixels_intersect_subset {mask area : LvArea} :
    pixels (lvAreaIntersect mask area).1 ⊆ pixels mask :=
  fun _ hp => (contains_lvAreaIntersect.mp hp).1

variable {ok ink} {D : Design ω}

mutual

/-- `lv_refr_obj` paints the look of the object through the mask. -/
theorem lvRefrObj_paints (hD : DesignContract D ok ink) (par : UInt8) (o : LvObj ω)
    (hplaced : o.Placed ok) (mask : LvArea) :
    PaintsOn (pixels mask) (o.look ink par) (lvRefrObj D par o mask) := by
  match o, hplaced with
  | .mk h children, hplaced =>
    unfold LvObj.Placed at hplaced
    by_cases hhidden : h.hidden
    · have hdraw : lvRefrObj D par (.mk h children) mask = fun canvas => canvas := by
        funext canvas
        rw [lvRefrObj, if_pos hhidden]
      rw [hdraw]
      refine (PaintsOn.id _).congr fun p _ b => (LvObj.look_eq_self ?_ par b).symm
      simp [LvObj.head, hhidden]
    · have hdraw : lvRefrObj D par (.mk h children) mask = fun canvas =>
          if (lvAreaIntersect mask h.extArea).2 = true then
            D.draw h (h.getOpaScale par) (lvAreaIntersect mask h.extArea).1 .drawPost
              (if (lvAreaIntersect mask h.coords).2 = true then
                lvRefrChildren D (h.getOpaScale par) children (lvAreaIntersect mask h.coords).1
                  (D.draw h (h.getOpaScale par) (lvAreaIntersect mask h.extArea).1 .drawMain canvas)
              else D.draw h (h.getOpaScale par) (lvAreaIntersect mask h.extArea).1 .drawMain canvas)
          else canvas := by
        funext canvas
        rw [lvRefrObj, if_neg hhidden]
      have hcoords : pixels (lvAreaIntersect mask h.coords).1 ⊆
          pixels (lvAreaIntersect mask h.extArea).1 := fun p hp =>
        have hp := contains_lvAreaIntersect.mp hp
        contains_lvAreaIntersect.mpr ⟨hp.1, contains_of_lvAreaIsIn hplaced.2.1 hp.2⟩
      -- the children paint inside the object, between its two drawing modes
      have hchildren := paintsOn_intersect pixels_intersect_subset hcoords
        (lvRefrChildren_paints hD (h.getOpaScale par) children hplaced.2.2 _)
      rw [hdraw]
      refine (paintsOn_intersect subset_rfl pixels_intersect_subset
        (((hD.paints hplaced.1 (h.getOpaScale par) _ .drawMain).comp hchildren).comp
          (hD.paints hplaced.1 (h.getOpaScale par) _ .drawPost))).congr fun p _ b => ?_
      simp only [LvObj.look, hhidden, true_and]

/-- The children are drawn one over the other. -/
theorem lvRefrChildren_paints (hD : DesignContract D ok ink) (scale : UInt8) (children : List (LvObj ω))
    (hplaced : AllPlaced ok children) (mask : LvArea) :
    PaintsOn (pixels mask) (lookAll ink scale children) (lvRefrChildren D scale children mask) := by
  match children, hplaced with
  | [], _ =>
    have hdraw : lvRefrChildren D scale [] mask = fun canvas => canvas := by
      funext canvas
      rw [lvRefrChildren]
    rw [hdraw]
    exact PaintsOn.id _
  | child :: older, hplaced =>
    unfold AllPlaced at hplaced
    have hdraw : lvRefrChildren D scale (child :: older) mask = fun canvas =>
        if (lvAreaIntersect mask child.head.extArea).2 = true then
          lvRefrObj D scale child (lvAreaIntersect mask child.head.extArea).1
            (lvRefrChildren D scale older mask canvas)
        else lvRefrChildren D scale older mask canvas := by
      funext canvas
      rw [lvRefrChildren]
    rw [hdraw]
    refine ((lvRefrChildren_paints hD scale older hplaced.2 mask).comp (paintsOn_intersect
      subset_rfl pixels_intersect_subset
      (lvRefrObj_paints hD scale child hplaced.1 _))).congr fun p _ b => ?_
    rw [lookAll]
    split
    · rfl
    · next hout => exact (LvObj.look_eq_self (fun h => hout h.2) scale _).symm

end

/-- Younger siblings are drawn one after the other. -/
theorem foldl_paints (hD : DesignContract D ok ink) (scale : UInt8) {prev : List (LvObj ω)}
    (hplaced : ∀ i ∈ prev, i.Placed ok) (mask : LvArea) :
    PaintsOn (pixels mask) (fun p b => prev.foldl (fun b i => i.look ink scale p b) b)
      fun canvas => prev.foldl (fun canvas i => lvRefrObj D scale i mask canvas) canvas := by
  induction prev with
  | nil => exact PaintsOn.id _
  | cons i prev ih =>
    obtain ⟨hi, hrest⟩ := List.forall_mem_cons.mp hplaced
    exact (lvRefrObj_paints hD scale i hi mask).comp (ih hrest)

/-! ## The topmost covering object -/

/-- What the loop up to the screen draws over a pixel: younger siblings, then the parent's
`LV_DESIGN_DRAW_POST`, at each level. -/
def youngerLook (ink : ObjHead ω → UInt8 → LvDesign → Pixel → UInt16 → UInt16) :
    List (Frame ω) → Pixel → UInt16 → UInt16
  | [], _, b => b
  | f :: frames, p, b =>
    youngerLook ink frames p (ink f.par (scaleAbove (f :: frames)) .drawPost p
      (f.prev.foldl (fun b i => i.look ink (scaleAbove (f :: frames)) p b) b))

/-- The younger siblings on the way up. -/
def YoungerPlaced (ok : ObjHead ω → Prop) (frames : List (Frame ω)) : Prop :=
  ∀ f ∈ frames, ok f.par ∧ ∀ i ∈ f.prev, i.Placed ok

/-- And so up to the screen. -/
theorem lvRefrYounger_paints (hD : DesignContract D ok ink) {frames : List (Frame ω)}
    (hplaced : YoungerPlaced ok frames) (mask : LvArea) :
    PaintsOn (pixels mask) (youngerLook ink frames) (lvRefrYounger D mask frames) := by
  induction frames with
  | nil => exact PaintsOn.id _
  | cons f frames ih =>
    obtain ⟨hf, hrest⟩ := List.forall_mem_cons.mp hplaced
    exact ((foldl_paints hD (scaleAbove (f :: frames)) hf.2 mask).comp
      (hD.paints hf.1 _ mask .drawPost)).comp (ih hrest)

/-- What the search leaves: an object below `o` that hides all there was on the mask, such that the
way up from it draws what `o` and the way up from `o` draw. -/
structure TopFound (ok : ObjHead ω → Prop)
    (ink : ObjHead ω → UInt8 → LvDesign → Pixel → UInt16 → UInt16) (mask : LvArea)
    (frames : List (Frame ω)) (o : LvObj ω) (found : Focus ω) : Prop where
  placed : found.obj.Placed ok
  younger : YoungerPlaced ok found.frames
  hides : ∀ p, mask.Contains p → ∀ b b',
    o.look ink (scaleAbove frames) p b = o.look ink (scaleAbove frames) p b'
  same : ∀ p, mask.Contains p → ∀ b,
    youngerLook ink found.frames p (found.obj.look ink (scaleAbove found.frames) p b) =
      youngerLook ink frames p (o.look ink (scaleAbove frames) p b)

/-- An object seen in full at a pixel inside its coordinates. -/
theorem LvObj.look_inside {h : ObjHead ω} {children : List (LvObj ω)}
    (hplaced : lvAreaIsIn h.coords h.extArea = true) (hhidden : h.hidden = false) {p : Pixel}
    (hp : h.coords.Contains p) (par : UInt8) (b : UInt16) :
    (LvObj.mk h children).look ink par p b =
      ink h (h.getOpaScale par) .drawPost p (lookAll ink (h.getOpaScale par) children p
        (ink h (h.getOpaScale par) .drawMain p b)) := by
  unfold LvObj.look
  rw [if_pos ⟨hhidden, contains_of_lvAreaIsIn hplaced hp⟩]
  dsimp only
  rw [if_pos hp]

theorem allPlaced_iff {children : List (LvObj ω)} :
    AllPlaced ok children ↔ ∀ i ∈ children, i.Placed ok := by
  induction children with
  | nil => exact ⟨fun _ _ h => absurd h List.not_mem_nil, fun _ => trivial⟩
  | cons c cs ih => rw [AllPlaced, ih, List.forall_mem_cons]

mutual

/-- What the search finds covers the mask. The induction is on the tree. -/
theorem lvRefrGetTopObj_found (hD : DesignContract D ok ink) {mask : LvArea} (o : LvObj ω)
    {frames : List (Frame ω)} {found : Focus ω} (hplaced : o.Placed ok)
    (hyounger : YoungerPlaced ok frames)
    (hfound : lvRefrGetTopObj D mask frames o = some found) :
    TopFound ok ink mask frames o found := by
  match o, hplaced with
  | .mk h children, hplaced =>
    have hplaced' := hplaced
    unfold LvObj.Placed at hplaced'
    unfold lvRefrGetTopObj at hfound
    split at hfound
    · next hin =>
      obtain ⟨hmask, hhidden⟩ : lvAreaIsIn mask h.coords = true ∧ h.hidden = false := by
        simpa using hin
      split at hfound
      · next deeper hdeeper =>
        obtain rfl : deeper = found := Option.some.inj hfound
        exact lvRefrGetTopChild_found hD children hplaced'.1 hplaced'.2.1 hhidden hmask
          (fun i hi => absurd hi List.not_mem_nil) (allPlaced_iff.mp hplaced'.2.2) hyounger hdeeper
      · split at hfound
        · next hcover =>
          obtain rfl := Option.some.inj hfound
          refine ⟨hplaced, hyounger, fun p hp b b' => ?_, fun p _ b => rfl⟩
          have hp' := contains_of_lvAreaIsIn hmask hp
          rw [LvObj.look_inside hplaced'.2.1 hhidden hp', LvObj.look_inside hplaced'.2.1 hhidden hp',
            hD.covers hplaced'.1 hcover.1 hcover.2.2 hcover.2.1 hp b b']
        · exact absurd hfound (by simp)
    · exact absurd hfound (by simp)

/-- The search among the children goes from the youngest to the oldest. -/
theorem lvRefrGetTopChild_found (hD : DesignContract D ok ink) {mask : LvArea}
    (children : List (LvObj ω)) {h : ObjHead ω} {frames : List (Frame ω)} {prev : List (LvObj ω)}
    {found : Focus ω} (hok : ok h) (hpad : lvAreaIsIn h.coords h.extArea = true) (hhidden : h.hidden = false)
    (hmask : lvAreaIsIn mask h.coords = true) (hprev : ∀ i ∈ prev, i.Placed ok)
    (hplaced : ∀ i ∈ children, i.Placed ok) (hyounger : YoungerPlaced ok frames)
    (hfound : lvRefrGetTopChild D mask h frames prev children = some found) :
    TopFound ok ink mask frames (.mk h (prev.reverse ++ children)) found := by
  match children, hplaced with
  | [], _ => exact absurd hfound (by simp [lvRefrGetTopChild])
  | child :: next, hplaced =>
    obtain ⟨hchild, hnext⟩ := List.forall_mem_cons.mp hplaced
    unfold lvRefrGetTopChild at hfound
    split at hfound
    · next deeper hdeeper =>
      obtain rfl : deeper = found := Option.some.inj hfound
      have hyounger' : YoungerPlaced ok (⟨h, prev, next⟩ :: frames) :=
        List.forall_mem_cons.mpr ⟨⟨hok, hprev⟩, hyounger⟩
      have hspec := lvRefrGetTopObj_found hD child hchild hyounger' hdeeper
      -- at a pixel of the mask the older siblings and the parent's background are hidden
      have hlook : ∀ p, mask.Contains p → ∀ b c,
          (LvObj.mk h (prev.reverse ++ child :: next)).look ink (scaleAbove frames) p b =
            ink h (h.getOpaScale (scaleAbove frames)) .drawPost p
              (prev.foldl (fun b i => i.look ink (h.getOpaScale (scaleAbove frames)) p b)
                (child.look ink (h.getOpaScale (scaleAbove frames)) p c)) := by
        intro p hp b c
        rw [LvObj.look_inside hpad hhidden (contains_of_lvAreaIsIn hmask hp), lookAll_append,
          lookAll_reverse, lookAll]
        exact congrArg (fun d => ink h _ .drawPost p (prev.foldl _ d)) (hspec.hides p hp _ c)
      refine ⟨hspec.placed, hspec.younger, fun p hp b b' => ?_, fun p hp b => ?_⟩
      · rw [hlook p hp b b, hlook p hp b' b]
      · rw [hspec.same p hp, hlook p hp b b]
        rfl
    · have hprev' : ∀ i ∈ child :: prev, i.Placed ok := List.forall_mem_cons.mpr ⟨hchild, hprev⟩
      have hspec :=
        lvRefrGetTopChild_found hD next hok hpad hhidden hmask hprev' hnext hyounger hfound
      rwa [List.reverse_cons, List.append_assoc] at hspec

end

/-- Drawing from the topmost object that covers the mask leaves the canvas that drawing the whole
screen leaves. -/
theorem lvRefrObjAndChildren_eq (hD : DesignContract D ok ink) {scr : LvObj ω} (hplaced : scr.Placed ok)
    (mask : LvArea) (canvas : Canvas) :
    lvRefrObjAndChildren D scr (lvRefrGetTopObj D mask [] scr) mask canvas =
      lvRefrObj D lvOpaCover scr mask canvas := by
  cases hfound : lvRefrGetTopObj D mask [] scr with
  | none => rfl
  | some found =>
    have hspec := lvRefrGetTopObj_found hD scr hplaced
      (fun f hf => absurd hf List.not_mem_nil) hfound
    have hscr := lvRefrObj_paints hD lvOpaCover scr hplaced mask
    have htop := (lvRefrObj_paints hD (scaleAbove found.frames) found.obj hspec.placed mask).comp
      (lvRefrYounger_paints hD hspec.younger mask)
    funext p
    by_cases hp : p ∈ pixels mask
    · exact (htop.inside canvas p hp).trans
        ((hspec.same p hp _).trans (hscr.inside canvas p hp).symm)
    · exact (htop.outside canvas p hp).trans (hscr.outside canvas p hp).symm

/-- No rounded corners and no shadows. -/
def noRoundedParts : RoundedParts :=
  ⟨fun _ _ _ _ canvas => canvas, fun _ _ _ _ _ canvas => canvas, fun _ _ _ _ canvas => canvas,
    fun _ _ _ _ canvas => canvas⟩

/-- The style of a white screen. -/
def whiteStyle : BodyStyle := ⟨0xFFFF, 0xFFFF, 0, 0, 0, 15, 255, 0⟩

/-- From red to black, in a border of two pixels that shows half of what is below it. -/
def redStyle : BodyStyle := ⟨0xF800, 0, 0, 0x07E0, 2, 15, 127, 0⟩

/-- A white screen with a red object, half off the mask, whose border is not opaque. -/
theorem lvRefrObjAndChildren_eq_gradient :
    let scr : LvObj BodyStyle := .mk ⟨⟨0, 0, 239, 319⟩, 0, false, 255, false, 255, whiteStyle⟩
      [.mk ⟨⟨10, 10, 69, 49⟩, 0, false, 255, false, 255, redStyle⟩ []]
    let D := lvObjDesign noRoundedParts
    lvRefrObjAndChildren D scr (lvRefrGetTopObj D ⟨40, 0, 99, 19⟩ [] scr) ⟨40, 0, 99, 19⟩
      (fun _ => 0) = lvRefrObj D lvOpaCover scr ⟨40, 0, 99, 19⟩ (fun _ => 0) := by
  intro scr D
  refine lvRefrObjAndChildren_eq (lvObjDesign_contract noRoundedParts) ?_ _ _
  simp only [scr, LvObj.Placed, AllPlaced]
  refine ⟨?_, by decide, ⟨?_, by decide, trivial⟩, trivial⟩ <;> constructor <;> decide

end Stm32Board.Gui
