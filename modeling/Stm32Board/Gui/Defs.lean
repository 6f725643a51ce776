import Stm32Board.Lcd.Fill

/-!
# The display side of the graphics library

Reference: `GUI_Vgl/lvgl/src/lv_misc/lv_area.c`, `GUI_Vgl/lvgl/src/lv_core/lv_refr.c`,
`GUI_Vgl/lvgl/src/lv_core/lv_obj.c` and `GUI_Vgl/lvgl_driver/lv_port_disp.c`.

Objects form a tree; a change of an object marks an area of the display invalid, and the refresh task
joins the marked areas, cuts each into bands that fit the draw buffer, draws the objects into the
buffer and flushes it. The display has one buffer and no `rounder_cb`, `set_px_cb` or `monitor_cb`.
-/

namespace Stm32Board.Gui

open Common Lcd

/-! ## Areas -/

/-- `LV_MATH_MAX`. -/
def lvMathMax (a b : Int16) : Int16 := if b < a then a else b

/-- `LV_MATH_MIN`. -/
def lvMathMin (a b : Int16) : Int16 := if a < b then a else b

def lvAreaGetWidth (a : LvArea) : Int16 := a.x2 - a.x1 + 1

def lvAreaGetHeight (a : LvArea) : Int16 := a.y2 - a.y1 + 1

/-- The factors are `int` values, multiplied as `uint32_t`. -/
def lvAreaGetSize (a : LvArea) : UInt32 :=
  UInt32.ofInt (a.x2.toInt - a.x1.toInt + 1) * UInt32.ofInt (a.y2.toInt - a.y1.toInt + 1)

/-- The common part, and whether there is one. -/
def lvAreaIntersect (a1 a2 : LvArea) : LvArea × Bool :=
  let res : LvArea :=
    { x1 := lvMathMax a1.x1 a2.x1
      y1 := lvMathMax a1.y1 a2.y1
      x2 := lvMathMin a1.x2 a2.x2
      y2 := lvMathMin a1.y2 a2.y2 }
  (res, !(decide (res.x2 < res.x1) || decide (res.y2 < res.y1)))

def lvAreaJoin (a1 a2 : LvArea) : LvArea where
  x1 := lvMathMin a1.x1 a2.x1
  y1 := lvMathMin a1.y1 a2.y1
  x2 := lvMathMax a1.x2 a2.x2
  y2 := lvMathMax a1.y2 a2.y2

def lvAreaIsOn (a1 a2 : LvArea) : Bool :=
  decide (a1.x1 ≤ a2.x2) && decide (a2.x1 ≤ a1.x2) && decide (a1.y1 ≤ a2.y2) &&
    decide (a2.y1 ≤ a1.y2)

def lvAreaIsIn (ain aholder : LvArea) : Bool :=
  decide (aholder.x1 ≤ ain.x1) && decide (aholder.y1 ≤ ain.y1) && decide (ain.x2 ≤ aholder.x2) &&
    decide (ain.y2 ≤ aholder.y2)

/-! ## Objects -/

/-- The modes of a design callback that draw. -/
inductive LvDesign where
  | drawMain
  | drawPost
deriving DecidableEq, Repr

/-- An `lv_obj_t` without its links; `data` is what its design callback reads besides. -/
structure ObjHead (ω : Type) where
  coords : LvArea
  extDrawPad : Int16
  hidden : Bool
  /-- `lv_obj_get_style(obj)->body.opa` -/
  bodyOpa : UInt8
  opaScaleEn : Bool
  opaScale : UInt8
  data : ω

/-- An object with its `child_ll`, the youngest child at the head. -/
inductive LvObj (ω : Type) where
  | mk (head : ObjHead ω) (childLl : List (LvObj ω))

variable {ω : Type}

def LvObj.head : LvObj ω → ObjHead ω
  | mk h _ => h

def lvOpaCover : UInt8 := 255

/-- The coordinates with `ext_draw_pad` on every side. -/
def ObjHead.extArea (h : ObjHead ω) : LvArea where
  x1 := h.coords.x1 - h.extDrawPad
  y1 := h.coords.y1 - h.extDrawPad
  x2 := h.coords.x2 + h.extDrawPad
  y2 := h.coords.y2 + h.extDrawPad

/-- `lv_obj_get_opa_scale`, given what it returns for the parent (`LV_OPA_COVER` without one). -/
def ObjHead.getOpaScale (h : ObjHead ω) (par : UInt8) : UInt8 :=
  if h.opaScaleEn then h.opaScale else par

/-- The colours of the display's pixels. -/
abbrev Canvas : Type := Pixel → UInt16

/-- The design callbacks: of an object, given its `lv_obj_get_opa_scale`. -/
structure Design (ω : Type) where
  /-- `LV_DESIGN_DRAW_MAIN` and `LV_DESIGN_DRAW_POST`, on a mask -/
  draw : ObjHead ω → UInt8 → LvArea → LvDesign → Canvas → Canvas
  /-- `LV_DESIGN_COVER_CHK` -/
  coverChk : ObjHead ω → UInt8 → LvArea → Bool

/-! ## Drawing -/

mutual

/-- `lv_refr_obj`; `par` is the opacity scale of the parent. -/
def lvRefrObj (D : Design ω) (par : UInt8) : LvObj ω → LvArea → Canvas → Canvas
  | .mk h children, maskOri, canvas =>
    if h.hidden then canvas
    else
      let objExtMask := lvAreaIntersect maskOri h.extArea
      if objExtMask.2 then
        let scale := h.getOpaScale par
        let canvas := D.draw h scale objExtMask.1 .drawMain canvas
        -- without the padding, because the children are not visible there
        let objMask := lvAreaIntersect maskOri h.coords
        let canvas := if objMask.2 then lvRefrChildren D scale children objMask.1 canvas else canvas
        D.draw h scale objExtMask.1 .drawPost canvas
      else canvas

/-- The loop `LV_LL_READ_BACK(obj->child_ll, child_p)` of `lv_refr_obj`. -/
def lvRefrChildren (D : Design ω) (scale : UInt8) : List (LvObj ω) → LvArea → Canvas → Canvas
  | [], _, canvas => canvas
  | child :: older, objMask, canvas =>
    let canvas := lvRefrChildren D scale older objMask canvas
    let maskChild := lvAreaIntersect objMask child.head.extArea
    if maskChild.2 then lvRefrObj D scale child maskChild.1 canvas else canvas

end

/-- The place of an object in its parent: the younger siblings before it, nearest first, and the
older ones after it. -/
structure Frame (ω : Type) where
  par : ObjHead ω
  prev : List (LvObj ω)
  next : List (LvObj ω)

/-- An object of a tree, reached through `par` links: innermost place first. -/
structure Focus (ω : Type) where
  obj : LvObj ω
  frames : List (Frame ω)

/-- `lv_obj_get_opa_scale` of the parent of an object below these places. -/
def scaleAbove : List (Frame ω) → UInt8
  | [] => lvOpaCover
  | f :: frames => f.par.getOpaScale (scaleAbove frames)

mutual

/-- `lv_refr_get_top_obj`, from an object at a place of the tree. -/
def lvRefrGetTopObj (D : Design ω) (area : LvArea) (frames : List (Frame ω)) :
    LvObj ω → Option (Focus ω)
  | .mk h children =>
    if lvAreaIsIn area h.coords && !h.hidden then
      match lvRefrGetTopChild D area h frames [] children with
      | some found => some found
      | none =>
        if h.bodyOpa = lvOpaCover ∧ D.coverChk h (h.getOpaScale (scaleAbove frames)) area ∧
            h.getOpaScale (scaleAbove frames) = lvOpaCover then
          some ⟨.mk h children, frames⟩
        else none
    else none

/-- The loop `LV_LL_READ(obj->child_ll, i)` of `lv_refr_get_top_obj`. -/
def lvRefrGetTopChild (D : Design ω) (area : LvArea) (par : ObjHead ω) (frames : List (Frame ω))
    (prev : List (LvObj ω)) : List (LvObj ω) → Option (Focus ω)
  | [] => none
  | child :: next =>
    match lvRefrGetTopObj D area (⟨par, prev, next⟩ :: frames) child with
    | some found => some found
    | none => lvRefrGetTopChild D area par frames (child :: prev) next

end

/-- The loop `while(par != NULL)` of `lv_refr_obj_and_children`. -/
def lvRefrYounger (D : Design ω) (mask : LvArea) : List (Frame ω) → Canvas → Canvas
  | [], canvas => canvas
  | f :: frames, canvas =>
    let scale := scaleAbove (f :: frames)
    let canvas := f.prev.foldl (fun canvas i => lvRefrObj D scale i mask canvas) canvas
    lvRefrYounger D mask frames (D.draw f.par scale mask .drawPost canvas)

/-- `lv_refr_obj_and_children`; `top_p == NULL` stands for the screen `scr`. -/
def lvRefrObjAndChildren (D : Design ω) (scr : LvObj ω) (top : Option (Focus ω)) (mask : LvArea)
    (canvas : Canvas) : Canvas :=
  let top := top.getD ⟨scr, []⟩
  lvRefrYounger D mask top.frames (lvRefrObj D (scaleAbove top.frames) top.obj mask canvas)

/-! ## Invalid areas -/

/-- An entry of `inv_areas` with its entry of `inv_area_joined`. -/
structure InvArea where
  area : LvArea
  joined : Bool
deriving DecidableEq, Repr

def lvInvBufSize : ℕ := 32

/-- What the refresh reads of an `lv_disp_t`: the resolutions of its driver, the size of its buffer
and the first `inv_p` invalid areas. -/
structure LvDisp where
  horRes : Int16
  verRes : Int16
  bufSize : UInt32
  inv : List InvArea

def LvDisp.scrArea (disp : LvDisp) : LvArea := ⟨0, 0, disp.horRes - 1, disp.verRes - 1⟩

/-- `lv_inv_area`; `none` is the null pointer. -/
def lvInvArea (disp : LvDisp) : Option LvArea → LvDisp
  | none => { disp with inv := [] }
  | some area =>
    let com := lvAreaIntersect area disp.scrArea
    if com.2 then
      if disp.inv.any fun e => lvAreaIsIn com.1 e.area then disp
      else if disp.inv.length < lvInvBufSize then
        { disp with inv := disp.inv ++ [⟨com.1, false⟩] }
      else
        -- `inv_p` starts again: the first entry is overwritten, with its flag as it is
        { disp with inv := [⟨disp.scrArea, (disp.inv.head?.map InvArea.joined).getD false⟩] }
    else disp

/-- One round of the loop over `join_from`. -/
def joinRound (joinIn joinFrom : ℕ) (inv : List InvArea) : List InvArea :=
  match inv[joinIn]?, inv[joinFrom]? with
  | some a, some b =>
    if b.joined ∨ joinIn = joinFrom then inv
    else if lvAreaIsOn a.area b.area then
      let joined := lvAreaJoin a.area b.area
      if lvAreaGetSize joined < lvAreaGetSize a.area + lvAreaGetSize b.area then
        (inv.set joinIn { a with area := joined }).set joinFrom { b with joined := true }
      else inv
    else inv
  | _, _ => inv

/-- One round of the loop over `join_in`. -/
def joinInto (joinIn : ℕ) (inv : List InvArea) : List InvArea :=
  if (inv[joinIn]?.map InvArea.joined).getD true then inv
  else (List.range inv.length).foldl (fun inv joinFrom => joinRound joinIn joinFrom inv) inv

def lvRefrJoinArea (inv : List InvArea) : List InvArea :=
  (List.range inv.length).foldl (fun inv joinIn => joinInto joinIn inv) inv

/-! ## Refreshing -/

/-- The loop over `row` of `lv_refr_area` and what follows it: the successive values of `vdb->area`. -/
def refrRows (area : LvArea) (y2 : Int16) (maxRow : ℤ) : ℕ → Int16 → Int16 → Option (List LvArea)
  | 0, _, _ => none
  | fuel + 1, row, rowLast =>
    if row.toInt + maxRow - 1 ≤ y2.toInt then
      let bottom := Int16.ofInt (row.toInt + maxRow - 1)
      let bottom := if y2 < bottom then y2 else bottom
      (refrRows area y2 maxRow fuel (Int16.ofInt (row.toInt + maxRow)) bottom).map
        ({ area with y1 := row, y2 := bottom } :: ·)
    else if y2 ≠ rowLast then some [{ area with y1 := row, y2 := y2 }]
    else some []

/-- `max_row`: the rows of an area that fit the buffer, and no more than it has. -/
def lvRefrMaxRow (disp : LvDisp) (area : LvArea) : ℤ :=
  let w := lvAreaGetWidth area
  let h := lvAreaGetHeight area
  let maxRow := (Int32.ofInt (disp.bufSize / UInt32.ofInt w.toInt).toNat).toInt
  if h.toInt < maxRow then h.toInt else maxRow

/-- The parts in which `lv_refr_area` refreshes an area; the width it divides by may be zero. -/
def lvRefrAreaParts (disp : LvDisp) (area : LvArea) : Option (List LvArea) :=
  let y2 := if disp.verRes ≤ area.y2 then disp.verRes - 1 else area.y2
  if lvAreaGetWidth area = 0 then none
  else refrRows area y2 (lvRefrMaxRow disp area) fuelU16 area.y1 0

/-- The objects of a display: `act_scr`, `top_layer` and `sys_layer`. -/
structure Layers (ω : Type) where
  actScr : LvObj ω
  topLayer : LvObj ω
  sysLayer : LvObj ω

/-- The draw buffer: its words and the flag that a flush is going on. -/
structure Vdb where
  buf : ℕ → UInt16
  flushing : Bool

/-- The words of the buffer as the pixels of `vdb->area`, row by row. -/
def Vdb.canvas (vdb : Vdb) (area : LvArea) : Canvas := fun p => vdb.buf (area.index p)

/-- The pixel at a place of the buffer of an area. -/
def pixelAt (area : LvArea) (k : ℕ) : Pixel :=
  (area.x1.toInt.toNat + k % area.width, area.y1.toInt.toNat + k / area.width)

/-- The words of the buffer after drawing on its pixels. -/
def Vdb.draw (vdb : Vdb) (area : LvArea) (canvas : Canvas) : Vdb :=
  { vdb with
    buf := fun k => if k < area.width * area.height then canvas (pixelAt area k) else vdb.buf k }

/-- `disp_flush` with `lv_disp_flush_ready`, as `lv_refr_vdb_flush` calls it. -/
def lvRefrVdbFlush (lcddev : LcdDev) (disp : LvDisp) (vdbArea : LvArea) (vdb : Vdb) :
    Option (Vdb × List BusOp) :=
  let vdb := { vdb with flushing := true }
  (dispFlush lcddev vdbArea ((List.range disp.bufSize.toNat).map vdb.buf)).map fun ops =>
    ({ vdb with flushing := false }, ops)

/-- `lv_refr_area_part`; it waits for ever when the last flush does not end. -/
def lvRefrAreaPart (D : Design ω) (lcddev : LcdDev) (layers : Layers ω) (disp : LvDisp)
    (area vdbArea : LvArea) (vdb : Vdb) : Option (Vdb × List BusOp) :=
  if vdb.flushing then none
  else
    let startMask := (lvAreaIntersect area vdbArea).1
    let topP := lvRefrGetTopObj D startMask [] layers.actScr
    let canvas := lvRefrObjAndChildren D layers.actScr topP startMask (vdb.canvas vdbArea)
    let canvas := lvRefrObjAndChildren D layers.actScr (some ⟨layers.topLayer, []⟩) startMask canvas
    let canvas := lvRefrObjAndChildren D layers.actScr (some ⟨layers.sysLayer, []⟩) startMask canvas
    lvRefrVdbFlush lcddev disp vdbArea (vdb.draw vdbArea canvas)

/-- Work through a list with a buffer, collecting the bus writes. -/
def refrAll {α : Type} (refr : α → Vdb → Option (Vdb × List BusOp)) :
    List α → Vdb → Option (Vdb × List BusOp)
  | [], vdb => some (vdb, [])
  | a :: as, vdb => do
    let (vdb, ops) ← refr a vdb
    let (vdb, rest) ← refrAll refr as vdb
    return (vdb, ops ++ rest)

def lvRefrArea (D : Design ω) (lcddev : LcdDev) (layers : Layers ω) (disp : LvDisp) (area : LvArea)
    (vdb : Vdb) : Option (Vdb × List BusOp) :=
  (lvRefrAreaParts disp area).bind fun parts =>
    refrAll (lvRefrAreaPart D lcddev layers disp area) parts vdb

/-- `lv_refr_areas`. -/
def lvRefrAreas (D : Design ω) (lcddev : LcdDev) (layers : Layers ω) (disp : LvDisp) (vdb : Vdb) :
    Option (Vdb × List BusOp) :=
  refrAll (fun e => lvRefrArea D lcddev layers disp e.area)
    (disp.inv.filter fun e => !e.joined) vdb

/-- `lv_disp_refr_task`. -/
def lvDispRefrTask (D : Design ω) (lcddev : LcdDev) (layers : Layers ω) (disp : LvDisp) (vdb : Vdb) :
    Option (LvDisp × Vdb × List BusOp) :=
  let disp := { disp with inv := lvRefrJoinArea disp.inv }
  (lvRefrAreas D lcddev layers disp vdb).map fun r =>
    (if disp.inv.length ≠ 0 then { disp with inv := [] } else disp, r)

end Stm32Board.Gui
