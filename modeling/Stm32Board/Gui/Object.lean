import Stm32Board.Gui.Invalid
import Stm32Board.Gui.Render

/-!
# Changing objects

Reference: `GUI_Vgl/lvgl/src/lv_core/lv_obj.c`.

Every function that changes what an object looks like calls `lv_obj_invalidate`, which cuts the
object's padded area to its parents and marks it. `Edited` says that this is enough: a pixel that is
not marked looks the same in the old and in the new tree. The objects have the signal function of the
basic object, `lv_obj_signal`, no `realign` and styles of their own.
-/

namespace Stm32Board.Gui

open Common Lcd

variable {ω : Type}

/-! ## The functions -/

/-- The tree around an object, from the screen down. -/
def plug : List (Frame ω) → LvObj ω → LvObj ω
  | [], o => o
  | f :: frames, o => plug frames (.mk f.par (f.prev.reverse ++ o :: f.next))

/-- The loop `while(par != NULL)` of `lv_obj_invalidate`. -/
def truncToParents : List (Frame ω) → LvArea → Option LvArea
  | [], area => some area
  | f :: frames, area =>
    let trunc := lvAreaIntersect area f.par.coords
    if trunc.2 then
      if f.par.hidden then none else truncToParents frames trunc.1
    else none

/-- `lv_obj_invalidate` of an object of one of the layers. -/
def lvObjInvalidate (disp : LvDisp) (o : Focus ω) : LvDisp :=
  if o.obj.head.hidden then disp
  else
    match truncToParents o.frames o.obj.head.extArea with
    | some areaTrunc => lvInvArea disp (some areaTrunc)
    | none => disp

def ObjHead.moveBy (dx dy : Int16) (h : ObjHead ω) : ObjHead ω :=
  { h with
    coords := ⟨h.coords.x1 + dx, h.coords.y1 + dy, h.coords.x2 + dx, h.coords.y2 + dy⟩ }

mutual

/-- An object moved with its children. -/
def LvObj.moveBy (dx dy : Int16) : LvObj ω → LvObj ω
  | .mk h children => .mk (h.moveBy dx dy) (refreshChildrenPosition dx dy children)

def refreshChildrenPosition (dx dy : Int16) : List (LvObj ω) → List (LvObj ω)
  | [] => []
  | child :: older => child.moveBy dx dy :: refreshChildrenPosition dx dy older

end

/-- The object with another head. -/
def LvObj.withHead (o : LvObj ω) (f : ObjHead ω → ObjHead ω) : LvObj ω :=
  match o with
  | .mk h children => .mk (f h) children

/-- Change an object between two calls of `lv_obj_invalidate`. -/
def changeObj (disp : LvDisp) (o : Focus ω) (f : LvObj ω → LvObj ω) : LvDisp × Focus ω :=
  let disp := lvObjInvalidate disp o
  let o := { o with obj := f o.obj }
  (lvObjInvalidate disp o, o)

/-- `lv_obj_set_pos`; a screen has no parent to be placed in. -/
def lvObjSetPos (disp : LvDisp) (o : Focus ω) (x y : Int16) : Option (LvDisp × Focus ω) :=
  match o.frames with
  | [] => none
  | f :: _ =>
    let dx := x + f.par.coords.x1 - o.obj.head.coords.x1
    let dy := y + f.par.coords.y1 - o.obj.head.coords.y1
    if dx = 0 ∧ dy = 0 then some (disp, o) else some (changeObj disp o (LvObj.moveBy dx dy))

/-- `lv_obj_set_size`. -/
def lvObjSetSize (disp : LvDisp) (o : Focus ω) (w h : Int16) : LvDisp × Focus ω :=
  if lvAreaGetWidth o.obj.head.coords = w ∧ lvAreaGetHeight o.obj.head.coords = h then (disp, o)
  else
    changeObj disp o fun obj => obj.withHead fun head =>
      { head with
        coords :=
          { head.coords with x2 := head.coords.x1 + w - 1, y2 := head.coords.y1 + h - 1 } }

/-- `lv_obj_set_hidden`; it reports to the parent. -/
def lvObjSetHidden (disp : LvDisp) (o : Focus ω) (en : Bool) : Option (LvDisp × Focus ω) :=
  match o.frames with
  | [] => none
  | _ :: _ =>
    let disp := if o.obj.head.hidden = false then lvObjInvalidate disp o else disp
    let o := { o with obj := o.obj.withHead fun head => { head with hidden := en } }
    some (if o.obj.head.hidden = false then lvObjInvalidate disp o else disp, o)

/-- `lv_obj_set_style`: the style first, then the padding its shadow needs. -/
def lvObjSetStyle (disp : LvDisp) (o : Focus ω) (bodyOpa : UInt8) (data : ω) (shadowWidth : Int16) :
    LvDisp × Focus ω :=
  let o :=
    { o with obj := o.obj.withHead fun head => { head with bodyOpa := bodyOpa, data := data } }
  let disp := lvObjInvalidate disp o
  let o :=
    { o with
      obj := o.obj.withHead fun head =>
        { head with extDrawPad := if 0 < shadowWidth then shadowWidth else 0 } }
  -- once by `lv_obj_refresh_ext_draw_pad` and once by `lv_obj_refresh_style`
  let disp := lvObjInvalidate disp o
  (lvObjInvalidate disp o, o)

/-- `lv_obj_set_opa_scale`. -/
def lvObjSetOpaScale (disp : LvDisp) (o : Focus ω) (opaScale : UInt8) : LvDisp × Focus ω :=
  let o := { o with obj := o.obj.withHead fun head => { head with opaScale := opaScale } }
  (lvObjInvalidate disp o, o)

/-- `lv_obj_move_foreground`: to the head of the parent's list. -/
def lvObjMoveForeground (disp : LvDisp) (o : Focus ω) : Option (LvDisp × Focus ω) :=
  match o.frames with
  | [] => none
  | f :: frames =>
    if f.prev = [] then some (disp, o)
    else
      let disp := lvObjInvalidate disp ⟨.mk f.par (f.prev.reverse ++ o.obj :: f.next), frames⟩
      let parent : Focus ω := ⟨.mk f.par (o.obj :: (f.prev.reverse ++ f.next)), frames⟩
      some (lvObjInvalidate disp parent, parent)

/-- `lv_obj_move_background`: to the tail of the parent's list. -/
def lvObjMoveBackground (disp : LvDisp) (o : Focus ω) : Option (LvDisp × Focus ω) :=
  match o.frames with
  | [] => none
  | f :: frames =>
    if f.next = [] then some (disp, o)
    else
      let disp := lvObjInvalidate disp ⟨.mk f.par (f.prev.reverse ++ o.obj :: f.next), frames⟩
      let parent : Focus ω := ⟨.mk f.par (f.prev.reverse ++ f.next ++ [o.obj]), frames⟩
      some (lvObjInvalidate disp parent, parent)

/-- `lv_obj_del`, of an object that is no screen; what is left is the parent. -/
def lvObjDel (disp : LvDisp) (o : Focus ω) : Option (LvDisp × Focus ω) :=
  match o.frames with
  | [] => none
  | f :: frames => some (lvObjInvalidate disp o, ⟨.mk f.par (f.prev.reverse ++ f.next), frames⟩)

/-- `LV_DPI`. -/
def lvDpi : Int16 := 60

/-- The attributes of a new object in the corner of its parent, with the style the theme gives. -/
def newObjHead (par : ObjHead ω) (bodyOpa : UInt8) (data : ω) : ObjHead ω where
  coords :=
    ⟨par.coords.x1, par.coords.y1, par.coords.x1 + lvDpi, par.coords.y1 + 2 * lvDpi / 3⟩
  extDrawPad := 0
  hidden := false
  bodyOpa := bodyOpa
  opaScaleEn := false
  opaScale := lvOpaCover
  data := data

/-- `lv_obj_create(parent, NULL)`. -/
def lvObjCreate (disp : LvDisp) (parent : Focus ω) (bodyOpa : UInt8) (data : ω) :
    LvDisp × Focus ω :=
  match parent.obj with
  | .mk h children =>
    let o : Focus ω := ⟨.mk (newObjHead h bodyOpa data) [], ⟨h, [], children⟩ :: parent.frames⟩
    (lvObjInvalidate disp o, o)

/-! ## Where an object shows -/

/-- The tree the object is in. -/
def Focus.root (o : Focus ω) : LvObj ω := plug o.frames o.obj

/-- The object, or what it casts around itself, may show at a pixel. -/
structure Focus.Shows (o : Focus ω) (p : Pixel) : Prop where
  visible : o.obj.head.hidden = false
  inside : o.obj.head.extArea.Contains p
  parents : ∀ f ∈ o.frames, f.par.hidden = false ∧ f.par.coords.Contains p

variable (ink : ObjHead ω → UInt8 → LvDesign → Pixel → UInt16 → UInt16)

/-- The parts of a tree look alike wherever they are put. -/
theorem look_plug_congr {frames : List (Frame ω)} {o o' : LvObj ω} {p : Pixel}
    (h : ∀ b, o.look ink (scaleAbove frames) p b = o'.look ink (scaleAbove frames) p b) (b : UInt16) :
    (plug frames o).look ink lvOpaCover p b = (plug frames o').look ink lvOpaCover p b := by
  induction frames generalizing o o' with
  | nil => exact h b
  | cons f frames ih =>
    unfold plug
    refine ih fun b => ?_
    unfold LvObj.look
    dsimp only
    split
    · split
      · rw [lookAll_append, lookAll_append, lookAll, lookAll]
        exact congrArg (fun d => ink f.par _ .drawPost p (lookAll ink _ f.prev.reverse p d)) (h _)
      · rfl
    · rfl

/-- Outside its coordinates the children of an object do not matter. -/
theorem look_children {h : ObjHead ω} {p : Pixel}
    (hout : ¬(h.hidden = false ∧ h.coords.Contains p)) (children children' : List (LvObj ω))
    (par : UInt8) (b : UInt16) :
    (LvObj.mk h children).look ink par p b = (LvObj.mk h children').look ink par p b := by
  unfold LvObj.look
  split
  · next hin =>
    have hcoords : ¬h.coords.Contains p := fun hp => hout ⟨hin.1, hp⟩
    dsimp only
    rw [if_neg hcoords, if_neg hcoords]
  · rfl

/-- Nor does what is below a parent that is hidden or elsewhere. -/
theorem look_plug_blocked {frames : List (Frame ω)} {p : Pixel}
    (hout : ¬∀ f ∈ frames, f.par.hidden = false ∧ f.par.coords.Contains p) (o o' : LvObj ω)
    (b : UInt16) :
    (plug frames o).look ink lvOpaCover p b = (plug frames o').look ink lvOpaCover p b := by
  induction frames generalizing o o' with
  | nil => exact absurd (fun f hf => absurd hf List.not_mem_nil) hout
  | cons f frames ih =>
    unfold plug
    by_cases hf : f.par.hidden = false ∧ f.par.coords.Contains p
    · exact ih (fun hall => hout (List.forall_mem_cons.mpr ⟨hf, hall⟩)) _ _
    · exact look_plug_congr ink (fun b => look_children ink hf _ _ _ b) b

/-- Where neither the old nor the new object shows, the trees look alike. -/
theorem look_root_of_not_shows {frames : List (Frame ω)} {o o' : LvObj ω} {p : Pixel}
    (h : ¬(Focus.mk o frames).Shows p) (h' : ¬(Focus.mk o' frames).Shows p) (b : UInt16) :
    (plug frames o).look ink lvOpaCover p b = (plug frames o').look ink lvOpaCover p b := by
  by_cases hparents : ∀ f ∈ frames, f.par.hidden = false ∧ f.par.coords.Contains p
  · refine look_plug_congr ink (fun b => ?_) b
    rw [LvObj.look_eq_self (fun hin => h ⟨hin.1, hin.2, hparents⟩),
      LvObj.look_eq_self (fun hin => h' ⟨hin.1, hin.2, hparents⟩)]
  · exact look_plug_blocked ink hparents o o' b

/-- Where an object does not show, its parent looks as without it. -/
theorem look_root_without {f : Frame ω} {frames : List (Frame ω)} {o : LvObj ω} {p : Pixel}
    (h : ¬(Focus.mk o (f :: frames)).Shows p) (b : UInt16) :
    (plug (f :: frames) o).look ink lvOpaCover p b =
      (plug frames (.mk f.par (f.prev.reverse ++ f.next))).look ink lvOpaCover p b := by
  rw [plug]
  by_cases hparents : ∀ g ∈ f :: frames, g.par.hidden = false ∧ g.par.coords.Contains p
  · refine look_plug_congr ink (fun b => ?_) b
    unfold LvObj.look
    dsimp only
    rw [lookAll_append, lookAll_append, lookAll,
      LvObj.look_eq_self (fun hin => h ⟨hin.1, hin.2, hparents⟩)]
  · by_cases hf : f.par.hidden = false ∧ f.par.coords.Contains p
    · exact look_plug_blocked ink (fun hall => hparents (List.forall_mem_cons.mpr ⟨hf, hall⟩)) _ _ b
    · exact look_plug_congr ink (fun b => look_children ink hf _ _ _ b) b

/-! ## Marking the changes -/

/-- A pixel that all parents show is not cut off. -/
theorem truncToParents_shows {frames : List (Frame ω)} {area : LvArea} {p : Pixel}
    (hp : area.Contains p) (hparents : ∀ f ∈ frames, f.par.hidden = false ∧ f.par.coords.Contains p) :
    ∃ areaTrunc, truncToParents frames area = some areaTrunc ∧ areaTrunc.Contains p := by
  induction frames generalizing area with
  | nil => exact ⟨area, rfl, hp⟩
  | cons f frames ih =>
    obtain ⟨⟨hhidden, hcoords⟩, hrest⟩ := List.forall_mem_cons.mp hparents
    unfold truncToParents
    rw [if_pos (lvAreaIntersect_ok_of_contains hp hcoords), hhidden]
    exact ih (contains_lvAreaIntersect.mpr ⟨hp, hcoords⟩) hrest

/-- From `disp` to `disp'` marks were only added. -/
structure MarksMore (lcddev : LcdDev) (disp disp' : LvDisp) : Prop where
  attached : Attached lcddev disp'
  marked : Marked lcddev disp'.inv
  keeps : invalid disp.inv ∩ screen lcddev ⊆ invalid disp'.inv

section Marks

variable {lcddev : LcdDev} {disp : LvDisp}

theorem MarksMore.refl (hd : Attached lcddev disp) (hm : Marked lcddev disp.inv) :
    MarksMore lcddev disp disp := ⟨hd, hm, fun _ h => h.1⟩

theorem MarksMore.trans {disp' disp'' : LvDisp} (h : MarksMore lcddev disp disp')
    (h' : MarksMore lcddev disp' disp'') : MarksMore lcddev disp disp'' :=
  ⟨h'.attached, h'.marked, fun _ hp => h'.keeps ⟨h.keeps hp, hp.2⟩⟩

/-- `lv_obj_invalidate` marks every pixel of the screen where the object shows. -/
theorem lvObjInvalidate_marks (hd : Attached lcddev disp) (hm : Marked lcddev disp.inv)
    (o : Focus ω) :
    MarksMore lcddev disp (lvObjInvalidate disp o) ∧
      ∀ p ∈ screen lcddev, o.Shows p → p ∈ invalid (lvObjInvalidate disp o).inv := by
  unfold lvObjInvalidate
  split
  · next hhidden =>
    exact ⟨.refl hd hm, fun p _ hp => absurd hp.visible (by simp [hhidden])⟩
  · cases htrunc : truncToParents o.frames o.obj.head.extArea with
    | none =>
      refine ⟨.refl hd hm, fun p _ hp => ?_⟩
      obtain ⟨area, harea, -⟩ := truncToParents_shows hp.inside hp.parents
      exact absurd (htrunc.symm.trans harea) (by simp)
    | some areaTrunc =>
      obtain ⟨hd', hm', hcov⟩ := lvInvArea_covers hd hm areaTrunc
      refine ⟨⟨hd', hm', fun p hp => hcov ⟨.inl hp.1, hp.2⟩⟩, fun p hscr hp => ?_⟩
      obtain ⟨area, harea, hparea⟩ := truncToParents_shows hp.inside hp.parents
      obtain rfl : areaTrunc = area := Option.some.inj (htrunc.symm.trans harea)
      exact hcov ⟨.inr hparea, hscr⟩

/-- A change of a tree whose marks cover it. -/
structure Edited (ink : ObjHead ω → UInt8 → LvDesign → Pixel → UInt16 → UInt16) (lcddev : LcdDev)
    (disp disp' : LvDisp) (tree tree' : LvObj ω) : Prop extends MarksMore lcddev disp disp' where
  covers : ∀ p ∈ screen lcddev, p ∉ invalid disp'.inv →
    ∀ b, tree'.look ink lvOpaCover p b = tree.look ink lvOpaCover p b

/-- A call that changes nothing marks enough. -/
theorem Edited.refl (hd : Attached lcddev disp) (hm : Marked lcddev disp.inv) (tree : LvObj ω) :
    Edited ink lcddev disp disp tree tree := ⟨.refl hd hm, fun _ _ _ _ => rfl⟩

/-- It is enough that the object is marked where it showed and where it shows. -/
theorem edited_of_shows {disp' : LvDisp} {frames : List (Frame ω)} {o o' : LvObj ω}
    (hmore : MarksMore lcddev disp disp')
    (h : ∀ p ∈ screen lcddev, (Focus.mk o frames).Shows p → p ∈ invalid disp'.inv)
    (h' : ∀ p ∈ screen lcddev, (Focus.mk o' frames).Shows p → p ∈ invalid disp'.inv) :
    Edited ink lcddev disp disp' (plug frames o) (plug frames o') :=
  ⟨hmore, fun p hscr hout b => (look_root_of_not_shows ink (fun hp => hout (h p hscr hp))
    (fun hp => hout (h' p hscr hp)) b).symm⟩

/-- Where an object shows depends on its place, its size and whether it is hidden. -/
theorem Focus.Shows.congr {frames : List (Frame ω)} {o o' : LvObj ω} {p : Pixel}
    (h : (Focus.mk o frames).Shows p) (hhidden : o'.head.hidden = o.head.hidden)
    (harea : o'.head.extArea = o.head.extArea) : (Focus.mk o' frames).Shows p :=
  ⟨hhidden.trans h.visible, by rw [harea]; exact h.inside, h.parents⟩

/-- Changing an object between two calls of `lv_obj_invalidate`. -/
theorem changeObj_edited (hd : Attached lcddev disp) (hm : Marked lcddev disp.inv) (o : Focus ω)
    (f : LvObj ω → LvObj ω) :
    Edited ink lcddev disp (changeObj disp o f).1 o.root (changeObj disp o f).2.root := by
  obtain ⟨hmore, hshows⟩ := lvObjInvalidate_marks hd hm o
  obtain ⟨hmore', hshows'⟩ :=
    lvObjInvalidate_marks hmore.attached hmore.marked { o with obj := f o.obj }
  exact edited_of_shows ink (hmore.trans hmore')
    (fun p hscr hp => hmore'.keeps ⟨hshows p hscr hp, hscr⟩) hshows'

/-- A hidden object is not marked, whether its caller looks first or not. -/
theorem ite_lvObjInvalidate (disp : LvDisp) (o : LvObj ω) (frames : List (Frame ω)) :
    (if o.head.hidden = false then lvObjInvalidate disp ⟨o, frames⟩ else disp) =
      lvObjInvalidate disp ⟨o, frames⟩ := by
  split
  · rfl
  · next hhidden =>
    unfold lvObjInvalidate
    rw [if_pos (by simpa using hhidden)]

end Marks

/-- The head that was changed. -/
theorem withHead_head (o : LvObj ω) (f : ObjHead ω → ObjHead ω) :
    (o.withHead f).head = f o.head := by
  cases o
  rfl

/-! ## The calls -/

/-- A call of a function that changes an object. -/
inductive LvCall (ω : Type) where
  | setPos (x y : Int16)
  | setSize (w h : Int16)
  | setHidden (en : Bool)
  | setStyle (bodyOpa : UInt8) (data : ω) (shadowWidth : Int16)
  | setOpaScale (opaScale : UInt8)
  | moveForeground
  | moveBackground
  | del
  | create (bodyOpa : UInt8) (data : ω)

/-- The display and the tree afterwards, the tree seen from the object or its parent. -/
def LvCall.run (disp : LvDisp) (o : Focus ω) : LvCall ω → Option (LvDisp × Focus ω)
  | .setPos x y => lvObjSetPos disp o x y
  | .setSize w h => some (lvObjSetSize disp o w h)
  | .setHidden en => lvObjSetHidden disp o en
  | .setStyle bodyOpa data shadowWidth => some (lvObjSetStyle disp o bodyOpa data shadowWidth)
  | .setOpaScale opaScale => some (lvObjSetOpaScale disp o opaScale)
  | .moveForeground => lvObjMoveForeground disp o
  | .moveBackground => lvObjMoveBackground disp o
  | .del => lvObjDel disp o
  | .create bodyOpa data => some (lvObjCreate disp o bodyOpa data)

section Calls

variable {lcddev : LcdDev} {disp disp' : LvDisp} (hd : Attached lcddev disp)
  (hm : Marked lcddev disp.inv)
include hd hm

/-- Hiding or showing an object marks it. -/
theorem lvObjSetHidden_edited {o o' : Focus ω} {en : Bool}
    (h : lvObjSetHidden disp o en = some (disp', o')) :
    Edited ink lcddev disp disp' o.root o'.root := by
  obtain ⟨obj, frames⟩ := o
  unfold lvObjSetHidden at h
  split at h
  · exact absurd h (by simp)
  · dsimp only at h
    rw [ite_lvObjInvalidate disp, ite_lvObjInvalidate] at h
    obtain ⟨rfl, rfl⟩ := Prod.mk.inj (Option.some.inj h)
    exact changeObj_edited ink hd hm ⟨obj, frames⟩ fun obj =>
      obj.withHead fun head => { head with hidden := en }

theorem lvObjSetStyle_edited (o : Focus ω) (bodyOpa : UInt8) (data : ω) (shadowWidth : Int16) :
    Edited ink lcddev disp (lvObjSetStyle disp o bodyOpa data shadowWidth).1 o.root
      (lvObjSetStyle disp o bodyOpa data shadowWidth).2.root := by
  unfold lvObjSetStyle
  extract_lets o₁ disp₁ o₂ disp₂
  obtain ⟨hmore₁, hshows₁⟩ := lvObjInvalidate_marks hd hm o₁
  obtain ⟨hmore₂, -⟩ := lvObjInvalidate_marks hmore₁.attached hmore₁.marked o₂
  obtain ⟨hmore₃, hshows₃⟩ := lvObjInvalidate_marks hmore₂.attached hmore₂.marked o₂
  refine edited_of_shows ink ((hmore₁.trans hmore₂).trans hmore₃) (fun p hscr hp => ?_) hshows₃
  have hp₁ : o₁.Shows p :=
    hp.congr (by rw [withHead_head]) (by rw [withHead_head]; rfl)
  exact (hmore₂.trans hmore₃).keeps ⟨hshows₁ p hscr hp₁, hscr⟩

theorem lvObjSetOpaScale_edited (o : Focus ω) (opaScale : UInt8) :
    Edited ink lcddev disp (lvObjSetOpaScale disp o opaScale).1 o.root
      (lvObjSetOpaScale disp o opaScale).2.root := by
  unfold lvObjSetOpaScale
  extract_lets o₁
  obtain ⟨hmore, hshows⟩ := lvObjInvalidate_marks hd hm o₁
  refine edited_of_shows ink hmore (fun p hscr hp => hshows p hscr ?_) hshows
  exact hp.congr (by rw [withHead_head]) (by rw [withHead_head]; rfl)

/-- Reordering the children of the parent, which is marked before and after. -/
theorem lvObjMove_edited {o : LvObj ω} {f : Frame ω} {frames : List (Frame ω)}
    (children : List (LvObj ω)) :
    Edited ink lcddev disp
      (lvObjInvalidate (lvObjInvalidate disp ⟨.mk f.par (f.prev.reverse ++ o :: f.next), frames⟩)
        ⟨.mk f.par children, frames⟩)
      (Focus.mk o (f :: frames)).root (Focus.mk (.mk f.par children) frames).root :=
  changeObj_edited ink hd hm ⟨.mk f.par (f.prev.reverse ++ o :: f.next), frames⟩
    fun _ => .mk f.par children

/-- A deleted object is marked before it goes. -/
theorem lvObjDel_edited (o : LvObj ω) (f : Frame ω) (frames : List (Frame ω)) :
    Edited ink lcddev disp (lvObjInvalidate disp ⟨o, f :: frames⟩) (Focus.mk o (f :: frames)).root
      (Focus.mk (.mk f.par (f.prev.reverse ++ f.next)) frames).root := by
  obtain ⟨hmore, hshows⟩ := lvObjInvalidate_marks hd hm ⟨o, f :: frames⟩
  exact ⟨hmore, fun p hscr hout b =>
    (look_root_without ink (fun hp => hout (hshows p hscr hp)) b).symm⟩

/-- A new object is marked when it is there. -/
theorem lvObjCreate_edited (parent : Focus ω) (bodyOpa : UInt8) (data : ω) :
    Edited ink lcddev disp (lvObjCreate disp parent bodyOpa data).1 parent.root
      (lvObjCreate disp parent bodyOpa data).2.root := by
  obtain ⟨⟨h, children⟩, frames⟩ := parent
  obtain ⟨hmore, hshows⟩ := lvObjInvalidate_marks hd hm
    ⟨.mk (newObjHead h bodyOpa data) [], ⟨h, [], children⟩ :: frames⟩
  exact ⟨hmore, fun p hscr hout b =>
    look_root_without ink (fun hp => hout (hshows p hscr hp)) b⟩

/-- Whatever function is called on whatever object, every pixel of the screen that looks different
afterwards is marked, and no mark is lost. -/
theorem LvCall.run_edited (call : LvCall ω) {o o' : Focus ω}
    (h : call.run disp o = some (disp', o')) : Edited ink lcddev disp disp' o.root o'.root := by
  obtain ⟨obj, frames⟩ := o
  -- each call either changes nothing or is one of the edits above
  cases call with
  | setPos x y =>
    simp only [LvCall.run, lvObjSetPos] at h
    cases frames with
    | nil => exact absurd h (by simp)
    | cons f frames =>
      dsimp only at h
      split at h
      · obtain ⟨rfl, rfl⟩ := Prod.mk.inj (Option.some.inj h)
        exact .refl ink hd hm _
      · obtain rfl := congrArg Prod.fst (Option.some.inj h)
        obtain rfl := congrArg Prod.snd (Option.some.inj h)
        exact changeObj_edited ink hd hm _ _
  | setSize w h' =>
    obtain rfl := congrArg Prod.fst (Option.some.inj h)
    obtain rfl := congrArg Prod.snd (Option.some.inj h)
    unfold lvObjSetSize
    split
    · exact .refl ink hd hm _
    · exact changeObj_edited ink hd hm _ _
  | setHidden en => exact lvObjSetHidden_edited ink hd hm h
  | setStyle bodyOpa data shadowWidth =>
    obtain rfl := congrArg Prod.fst (Option.some.inj h)
    obtain rfl := congrArg Prod.snd (Option.some.inj h)
    exact lvObjSetStyle_edited ink hd hm _ bodyOpa data shadowWidth
  | setOpaScale opaScale =>
    obtain rfl := congrArg Prod.fst (Option.some.inj h)
    obtain rfl := congrArg Prod.snd (Option.some.inj h)
    exact lvObjSetOpaScale_edited ink hd hm _ opaScale
  | moveForeground =>
    simp only [LvCall.run, lvObjMoveForeground] at h
    cases frames with
    | nil => exact absurd h (by simp)
    | cons f frames =>
      dsimp only at h
      split at h <;> obtain ⟨rfl, rfl⟩ := Prod.mk.inj (Option.some.inj h)
      · exact .refl ink hd hm _
      · exact lvObjMove_edited ink hd hm _
  | moveBackground =>
    simp only [LvCall.run, lvObjMoveBackground] at h
    cases frames with
    | nil => exact absurd h (by simp)
    | cons f frames =>
      dsimp only at h
      split at h <;> obtain ⟨rfl, rfl⟩ := Prod.mk.inj (Option.some.inj h)
      · exact .refl ink hd hm _
      · exact lvObjMove_edited ink hd hm _
  | del =>
    simp only [LvCall.run, lvObjDel] at h
    cases frames with
    | nil => exact absurd h (by simp)
    | cons f frames =>
      obtain ⟨rfl, rfl⟩ := Prod.mk.inj (Option.some.inj h)
      exact lvObjDel_edited ink hd hm obj f frames
  | create bodyOpa data =>
    obtain rfl := congrArg Prod.fst (Option.some.inj h)
    obtain rfl := congrArg Prod.snd (Option.some.inj h)
    exact lvObjCreate_edited ink hd hm _ bodyOpa data

end Calls

/-- A white screen of an upright panel. -/
def whiteHead : ObjHead BodyStyle := ⟨⟨0, 0, 239, 319⟩, 0, false, 255, false, 255, whiteStyle⟩

/-- A red object on it. -/
def redFocus : Focus BodyStyle :=
  ⟨.mk ⟨⟨10, 10, 69, 49⟩, 0, false, 255, false, 255, redStyle⟩ [], [⟨whiteHead, [], []⟩]⟩

/-- Moving it. -/
theorem LvCall.run_edited_move :
    ∃ disp' o', (LvCall.setPos 100 200).run ⟨240, 320, 4800, []⟩ redFocus = some (disp', o') ∧
      o'.obj.head.coords = ⟨100, 200, 159, 239⟩ ∧
      ∀ p ∈ screen (lcdDisplayDirParams ⟨0, 0, 0x9341, 0, 0, 0, 0⟩ 0), p ∉ invalid disp'.inv →
        ∀ b, o'.root.look (lvObjDesign noRoundedParts).ink lvOpaCover p b =
          redFocus.root.look (lvObjDesign noRoundedParts).ink lvOpaCover p b := by
  have hrun : (LvCall.setPos 100 200).run ⟨240, 320, 4800, []⟩ redFocus =
      some (changeObj ⟨240, 320, 4800, []⟩ redFocus (LvObj.moveBy 90 190)) := rfl
  have hd : Attached (lcdDisplayDirParams ⟨0, 0, 0x9341, 0, 0, 0, 0⟩ 0) ⟨240, 320, 4800, []⟩ := by
    constructor <;> decide
  exact ⟨_, _, hrun, rfl, (LvCall.run_edited (lvObjDesign noRoundedParts).ink hd Marked.nil _ hrun).covers⟩

end Stm32Board.Gui
