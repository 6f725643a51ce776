import Stm32Board.Gui.Object
import Stm32Board.Common.Writes

/-!
# The panel follows the objects

A refresh draws the invalid areas part by part into the buffer and flushes each part to the panel.
`lvDispRefrTask_draws` says that the stores that reach the panel are the pixels of these areas with the
colours the objects have there. With `LvCall.run_edited` it follows that after any calls and refreshes
the panel shows the objects, once the refresh task has run (`guiRun_refr`).
-/

namespace Stm32Board.Gui

open Common Lcd

variable {ω : Type} {lcddev : LcdDev}

/-! ## Stores of a view -/

/-- The bus writes store the view on a set of pixels and nothing else. -/
structure Draws (C : Controller lcddev) (view : Canvas) (S : Set Pixel) (s : C.State)
    (ops : List BusOp) : Prop where
  full : C.Full (C.run s ops).1
  stores : ∀ p c, (p, c) ∈ (C.run s ops).2 ↔ p ∈ S ∧ c = view p

namespace Draws

variable {C : Controller lcddev} {view : Canvas} {S S' : Set Pixel} {s : C.State}
  {ops ops' : List BusOp}

/-- Nothing is drawn by no operation. -/
theorem nil (hs : C.Full s) : Draws C view ∅ s [] :=
  ⟨hs, fun p _ => ⟨fun h => absurd h List.not_mem_nil, fun h => absurd h.1 (Set.notMem_empty p)⟩⟩

/-- What is drawn first and what is drawn then. -/
theorem append (h : Draws C view S s ops) (h' : Draws C view S' (C.run s ops).1 ops') :
    Draws C view (S ∪ S') s (ops ++ ops') := by
  refine ⟨?_, fun p c => ?_⟩ <;> rw [C.run_append]
  · exact h'.full
  · rw [List.mem_append, h.stores, h'.stores, Set.mem_union, or_and_right]

/-- Only the set of pixels matters. -/
theorem congr (h : Draws C view S s ops) (hS : ∀ p, p ∈ S ↔ p ∈ S') : Draws C view S' s ops :=
  ⟨h.full, fun p c => by rw [h.stores, hS]⟩

/-- The panel afterwards. -/
theorem panel (h : Draws C view S s ops) (shown : Canvas) :
    (∀ p ∈ S, applyWrites shown (C.run s ops).2 p = view p) ∧
      ∀ p ∉ S, applyWrites shown (C.run s ops).2 p = shown p := by
  have hval : ∀ w ∈ (C.run s ops).2, w.2 = view w.1 := fun w hw => ((h.stores w.1 w.2).mp hw).2
  have hagree := applyWrites_of_agree shown view hval
  have hmem : ∀ p, p ∈ (C.run s ops).2.map Prod.fst ↔ p ∈ S := by
    intro p
    rw [List.mem_map]
    constructor
    · rintro ⟨w, hw, rfl⟩
      exact ((h.stores w.1 w.2).mp hw).1
    · intro hp
      exact ⟨(p, view p), (h.stores p (view p)).mpr ⟨hp, rfl⟩, rfl⟩
  refine ⟨fun p hp => ?_, fun p hp => ?_⟩ <;> rw [hagree]
  · exact if_pos ((hmem p).mpr hp)
  · exact if_neg fun h => hp ((hmem p).mp h)

end Draws

/-- `disp_flush` of a buffer that holds the area, and maybe more. -/
theorem dispFlush_run_le (C : Controller lcddev) {a : LvArea} (h : a.Inside lcddev)
    {color : List UInt16} (hlen : a.width * a.height ≤ color.length) {s : C.State}
    (hs : C.Full s) :
    ∃ ops, dispFlush lcddev a color = some ops ∧ C.Full (C.run s ops).1 ∧
      (C.run s ops).2 = rectStores a.x1.toInt.toNat a.y1.toInt.toNat a.width a.height
        fun i j => color.getD (i * a.width + j) 0 := by
  have hedges := h.edges
  have hx2 := hedges.x2_lt
  have hy2 := hedges.y2_lt
  have hwidth := hedges.width_eq
  have hheight := hedges.height_eq
  have hint : a.width * a.height ≤ 32768 * 32768 := Nat.mul_le_mul (by omega) (by omega)
  have hops := lcdColorFill_eq lcddev hedges.x_le (by omega) hedges.y_le (by omega)
    color (fun i j => color.getD (i * a.width + j) 0) (by
      rw [hwidth, hheight]
      intro i hi j hj
      have hlt := index_lt hi hj
      exact colorAt_eq_getD (by omega) (by omega))
  obtain ⟨hstores, hfull⟩ := C.run_rect (fun i j => color.getD (i * a.width + j) 0) hs
    hedges.left_lt hedges.width_fits hedges.height_fits
  rw [hwidth, hheight] at hops
  rw [hedges.left_eq, hedges.top_eq] at hstores
  exact ⟨_, hops, hfull, hstores⟩

/-! ## One part -/

/-- What the objects of the three layers look like at a pixel. -/
def Layers.view (ink : ObjHead ω → UInt8 → LvDesign → Pixel → UInt16 → UInt16) (layers : Layers ω) :
    Canvas := fun p =>
  layers.sysLayer.look ink lvOpaCover p (layers.topLayer.look ink lvOpaCover p
    (layers.actScr.look ink lvOpaCover p 0))

/-- The objects are placed, and the active screen is an opaque background of the whole display. -/
structure LayersOk (D : Design ω) (ok : ObjHead ω → Prop) (disp : LvDisp) (layers : Layers ω) :
    Prop where
  actScr : layers.actScr.Placed ok
  topLayer : layers.topLayer.Placed ok
  sysLayer : layers.sysLayer.Placed ok
  visible : layers.actScr.head.hidden = false
  background : lvAreaIsIn disp.scrArea layers.actScr.head.coords = true
  bodyOpa : layers.actScr.head.bodyOpa = lvOpaCover
  opaScale : layers.actScr.head.getOpaScale lvOpaCover = lvOpaCover
  coverChk : D.coverChk layers.actScr.head lvOpaCover disp.scrArea = true

/-- The table of invalid areas does not matter to it. -/
theorem LayersOk.withInv {D : Design ω} {ok : ObjHead ω → Prop} {disp : LvDisp} {layers : Layers ω}
    (h : LayersOk D ok disp layers) (inv : List InvArea) :
    LayersOk D ok { disp with inv := inv } layers :=
  ⟨h.actScr, h.topLayer, h.sysLayer, h.visible, h.background, h.bodyOpa, h.opaScale, h.coverChk⟩

theorem Attached.withInv {disp : LvDisp} (h : Attached lcddev disp) (inv : List InvArea) :
    Attached lcddev { disp with inv := inv } :=
  ⟨h.horRes_eq, h.verRes_eq, h.horRes_pos, h.verRes_pos, h.row_le, h.bufSize_lt⟩

variable {ok : ObjHead ω → Prop} {ink : ObjHead ω → UInt8 → LvDesign → Pixel → UInt16 → UInt16}
  {D : Design ω} (hD : DesignContract D ok ink) {disp : LvDisp} (hd : Attached lcddev disp)
  {layers : Layers ω} (hl : LayersOk D ok disp layers)
include hD hd hl

/-- Of what was in the buffer before, nothing is left under the active screen. -/
theorem look_actScr {p : Pixel} (hp : p ∈ screen lcddev) (b : UInt16) :
    layers.actScr.look ink lvOpaCover p b = layers.actScr.look ink lvOpaCover p 0 := by
  have hscr := (scrArea_contains hd).mpr hp
  obtain ⟨hplaced, -, -, hvisible, hback, hopa, hscale, hcover⟩ := hl
  cases hobj : layers.actScr with
  | mk h children =>
    rw [hobj] at hplaced hvisible hback hopa hscale hcover
    simp only [LvObj.head] at hvisible hback hopa hscale hcover
    unfold LvObj.Placed at hplaced
    have hin := contains_of_lvAreaIsIn hback hscr
    rw [LvObj.look_inside hplaced.2.1 hvisible hin, LvObj.look_inside hplaced.2.1 hvisible hin,
      hscale, hD.covers hplaced.1 hopa rfl hcover hscr b 0]

/-- The mask of a part that lies in the area. -/
theorem drawn_view {vdb : Vdb} {area part : LvArea} (hin : lvAreaIsIn part area = true)
    {p : Pixel} (hpart : part.Contains p) (hp : p ∈ screen lcddev) :
    let mask := (lvAreaIntersect area part).1
    lvRefrObjAndChildren D layers.actScr (some ⟨layers.sysLayer, []⟩) mask
      (lvRefrObjAndChildren D layers.actScr (some ⟨layers.topLayer, []⟩) mask
        (lvRefrObjAndChildren D layers.actScr (lvRefrGetTopObj D mask [] layers.actScr) mask
          (vdb.canvas part))) p = layers.view ink p := by
  intro mask
  have hmask : p ∈ pixels mask :=
    contains_lvAreaIntersect.mpr ⟨contains_of_lvAreaIsIn hin hpart, hpart⟩
  rw [lvRefrObjAndChildren_eq hD hl.actScr]
  -- a layer has no parents: only the object itself is drawn
  show lvRefrObj D lvOpaCover layers.sysLayer mask (lvRefrObj D lvOpaCover layers.topLayer mask
    (lvRefrObj D lvOpaCover layers.actScr mask (vdb.canvas part))) p = _
  rw [(lvRefrObj_paints hD lvOpaCover layers.sysLayer hl.sysLayer mask).inside _ p hmask,
    (lvRefrObj_paints hD lvOpaCover layers.topLayer hl.topLayer mask).inside _ p hmask,
    (lvRefrObj_paints hD lvOpaCover layers.actScr hl.actScr mask).inside _ p hmask,
    look_actScr hD hd hl hp]
  rfl

omit hD hd hl in
/-- The words of a drawn buffer, row by row. -/
theorem getD_draw {vdb : Vdb} {part : LvArea} {canvas : Canvas} {n : ℕ}
    (hn : part.width * part.height ≤ n) {i j : ℕ} (hi : i < part.height) (hj : j < part.width) :
    ((List.range n).map (vdb.draw part canvas).buf).getD (i * part.width + j) 0 =
      canvas (part.x1.toInt.toNat + j, part.y1.toInt.toNat + i) := by
  have hlt := index_lt hi hj
  have hpos : 0 < part.width := by omega
  rw [List.getD_eq_getElem?_getD, List.getElem?_map, List.getElem?_range (by omega)]
  show (vdb.draw part canvas).buf _ = _
  unfold Vdb.draw
  dsimp only
  rw [if_pos hlt, pixelAt, Nat.mul_comm i, Nat.mul_add_mod, Nat.mul_add_div hpos,
    Nat.mod_eq_of_lt hj, Nat.div_eq_of_lt hj, Nat.add_zero]

/-- One band of an area. -/
theorem lvRefrAreaPart_draws (C : Controller lcddev) {vdb : Vdb} (hflush : vdb.flushing = false)
    {area part : LvArea} (hin : lvAreaIsIn part area = true) (hinside : part.Inside lcddev)
    (hfits : part.width * part.height ≤ disp.bufSize.toNat) {s : C.State} (hs : C.Full s) :
    ∃ vdb' ops, lvRefrAreaPart D lcddev layers disp area part vdb = some (vdb', ops) ∧
      vdb'.flushing = false ∧ Draws C (layers.view ink) (pixels part) s ops := by
  unfold lvRefrAreaPart
  rw [hflush, if_neg Bool.false_ne_true]
  extract_lets mask top canvas₁ canvas₂ canvas
  have hlen : part.width * part.height ≤
      ((List.range disp.bufSize.toNat).map (vdb.draw part canvas).buf).length := by
    rw [List.length_map, List.length_range]
    exact hfits
  -- the buffer is flushed as a rectangle of the panel
  obtain ⟨ops, hops, hfull, hstores⟩ := dispFlush_run_le C hinside hlen hs
  refine ⟨{ vdb.draw part canvas with flushing := false }, ops, ?_, rfl, hfull, fun p c => ?_⟩
  · unfold lvRefrVdbFlush
    dsimp only
    rw [hops]
    rfl
  · obtain ⟨hx1, hx, hxw, hy1, hy, hyh⟩ := hinside
    have hinside' : part.x1.toInt.toNat ≤ p.1 ∧ p.1 < part.x1.toInt.toNat + part.width ∧
        part.y1.toInt.toNat ≤ p.2 ∧ p.2 < part.y1.toInt.toNat + part.height ↔ part.Contains p := by
      rw [LvArea.Contains, LvArea.width, LvArea.height]
      omega
    rw [hstores, show ((p, c) : PixelStore) = ((p.1, p.2), c) from rfl, mem_rectStores,
      mem_pixels, ← hinside', and_assoc, and_assoc, and_assoc]
    refine and_congr_right fun hxp => and_congr_right fun hxp' => and_congr_right fun hyp =>
      and_congr_right fun hyp' => ?_
    have hcontains : part.Contains p := hinside'.mp ⟨hxp, hxp', hyp, hyp'⟩
    have hscr : p ∈ screen lcddev := by
      unfold LvArea.Contains at hcontains
      exact ⟨by omega, by omega⟩
    -- what is in the buffer at a pixel is what the objects give it
    rw [getD_draw hfits (by omega) (by omega), Nat.add_sub_cancel' hxp, Nat.add_sub_cancel' hyp]
    have hview : canvas (p.1, p.2) = layers.view ink p := drawn_view hD hd hl hin hcontains hscr
    rw [hview]
    exact eq_comm

/-! ## All parts of all areas -/

omit hD hd hl in
/-- If every item of a list draws its pixels, with the buffer not being flushed in between, the list
draws all of them. -/
theorem refrAll_draws {α : Type} (C : Controller lcddev) {view : Canvas}
    {refr : α → Vdb → Option (Vdb × List BusOp)} {S : α → Set Pixel} {as : List α}
    (hrefr : ∀ a ∈ as, ∀ vdb : Vdb, vdb.flushing = false → ∀ s, C.Full s →
      ∃ vdb' ops, refr a vdb = some (vdb', ops) ∧ vdb'.flushing = false ∧ Draws C view (S a) s ops)
    {vdb : Vdb} (hflush : vdb.flushing = false) {s : C.State} (hs : C.Full s) :
    ∃ vdb' ops, refrAll refr as vdb = some (vdb', ops) ∧ vdb'.flushing = false ∧
      Draws C view {p | ∃ a ∈ as, p ∈ S a} s ops := by
  induction as generalizing vdb s with
  | nil =>
    refine ⟨vdb, [], rfl, hflush, (Draws.nil hs).congr fun p => ?_⟩
    exact ⟨fun h => absurd h (Set.notMem_empty p), fun ⟨a, ha, _⟩ => absurd ha List.not_mem_nil⟩
  | cons a as ih =>
    obtain ⟨hfirst, hrest⟩ := List.forall_mem_cons.mp hrefr
    obtain ⟨vdb₁, ops₁, h₁, hflush₁, hdraws₁⟩ := hfirst vdb hflush s hs
    obtain ⟨vdb₂, ops₂, h₂, hflush₂, hdraws₂⟩ := ih hrest hflush₁ hdraws₁.full
    refine ⟨vdb₂, ops₁ ++ ops₂, ?_, hflush₂, (hdraws₁.append hdraws₂).congr fun p => ?_⟩
    · unfold refrAll
      rw [h₁, Option.bind_eq_bind, Option.bind_some]
      dsimp only
      rw [h₂]
      rfl
    · rw [Set.mem_union]
      exact (List.exists_mem_cons_iff (fun a => p ∈ S a) a as).symm

/-- All bands of an area. -/
theorem lvRefrArea_draws (C : Controller lcddev) {vdb : Vdb} (hflush : vdb.flushing = false)
    {area : LvArea} (hinside : area.Inside lcddev) {s : C.State} (hs : C.Full s) :
    ∃ vdb' ops, lvRefrArea D lcddev layers disp area vdb = some (vdb', ops) ∧
      vdb'.flushing = false ∧ Draws C (layers.view ink) (pixels area) s ops := by
  obtain ⟨parts, hparts, htile, -, hband⟩ := lvRefrAreaParts_tile hd hinside
  have hin : ∀ b ∈ parts, lvAreaIsIn b area = true := by
    intro b hb
    obtain ⟨⟨hx1, hx, hxw, hy1, hy, hyh⟩, hbx1, hbx2, -⟩ := hband b hb
    -- the corners of the band are pixels of the band, so of the area
    have htop := (htile (b.x1.toInt.toNat, b.y1.toInt.toNat)).mpr
      ⟨b, hb, by unfold LvArea.Contains; dsimp only; omega⟩
    have hbottom := (htile (b.x2.toInt.toNat, b.y2.toInt.toNat)).mpr
      ⟨b, hb, by unfold LvArea.Contains; dsimp only; omega⟩
    rw [lvAreaIsIn_iff]
    unfold LvArea.Contains at htop hbottom
    dsimp only at htop hbottom
    omega
  have hparts' : ∀ b ∈ parts, ∀ vdb : Vdb, vdb.flushing = false → ∀ s, C.Full s →
      ∃ vdb' ops, lvRefrAreaPart D lcddev layers disp area b vdb = some (vdb', ops) ∧
        vdb'.flushing = false ∧ Draws C (layers.view ink) (pixels b) s ops :=
    fun b hb vdb hvdb s hs => lvRefrAreaPart_draws hD hd hl C hvdb (hin b hb) (hband b hb).1
      (hband b hb).2.2.2 hs
  obtain ⟨vdb', ops, hrun, hflush', hdraws⟩ := refrAll_draws C hparts' hflush hs
  refine ⟨vdb', ops, ?_, hflush', hdraws.congr fun p => (htile p).symm⟩
  unfold lvRefrArea
  rw [hparts]
  exact hrun

/-- All areas in the table. The induction is on the table. -/
theorem lvRefrAreas_draws (C : Controller lcddev) (hinside : ∀ e ∈ disp.inv, e.area.Inside lcddev)
    {vdb : Vdb} (hflush : vdb.flushing = false) {s : C.State} (hs : C.Full s) :
    ∃ vdb' ops, lvRefrAreas D lcddev layers disp vdb = some (vdb', ops) ∧
      vdb'.flushing = false ∧ Draws C (layers.view ink) (invalid disp.inv) s ops := by
  unfold lvRefrAreas
  have hareas : ∀ e ∈ disp.inv.filter (fun e => !e.joined), ∀ vdb : Vdb, vdb.flushing = false →
      ∀ s, C.Full s → ∃ vdb' ops, lvRefrArea D lcddev layers disp e.area vdb = some (vdb', ops) ∧
        vdb'.flushing = false ∧ Draws C (layers.view ink) (pixels e.area) s ops :=
    fun e he vdb hvdb s hs => lvRefrArea_draws hD hd hl C hvdb
      (hinside e (List.mem_filter.mp he).1) hs
  obtain ⟨vdb', ops, hrun, hflush', hdraws⟩ := refrAll_draws C hareas hflush hs
  refine ⟨vdb', ops, hrun, hflush', hdraws.congr fun p => ?_⟩
  simp only [invalid, Set.mem_ofPred_eq, List.mem_filter, Bool.not_eq_true', mem_pixels, and_assoc]

/-- The refresh task ends, and what it sends to the panel are the pixels of the invalid areas as the
objects look there; no area is left. -/
theorem lvDispRefrTask_draws (C : Controller lcddev) (hm : Marked lcddev disp.inv) {vdb : Vdb}
    (hflush : vdb.flushing = false) {s : C.State} (hs : C.Full s) :
    ∃ vdb' ops, lvDispRefrTask D lcddev layers disp vdb =
        some ({ disp with inv := [] }, vdb', ops) ∧ vdb'.flushing = false ∧
      Draws C (layers.view ink) (invalid (lvRefrJoinArea disp.inv)) s ops := by
  have hjoins : Joins lcddev disp.inv (lvRefrJoinArea disp.inv) := lvRefrJoinArea_joins disp.inv
  unfold lvDispRefrTask
  generalize lvRefrJoinArea disp.inv = inv at hjoins
  obtain ⟨vdb', ops, hrun, hflush', hdraws⟩ := lvRefrAreas_draws hD (hd.withInv inv)
    (hl.withInv inv) C (hjoins.inside hm.inside) hflush hs
  refine ⟨vdb', ops, ?_, hflush', hdraws⟩
  dsimp only
  rw [hrun, Option.map_some]
  cases inv with
  | nil => rfl
  | cons e es => rfl

omit hD hd hl

/-! ## The running interface -/

/-- The object at the end of a path of child numbers, the youngest child first. -/
def focusAt (frames : List (Frame ω)) : LvObj ω → List ℕ → Option (Focus ω)
  | o, [] => some ⟨o, frames⟩
  | .mk h children, k :: path =>
    (children[k]?).bind fun child =>
      focusAt (⟨h, (children.take k).reverse, children.drop (k + 1)⟩ :: frames) child path

/-- Going down to an object does not change the tree. -/
theorem focusAt_root {frames : List (Frame ω)} {o : LvObj ω} {path : List ℕ} {found : Focus ω}
    (h : focusAt frames o path = some found) : found.root = plug frames o := by
  induction path generalizing frames o with
  | nil =>
    obtain rfl : _ = found := Option.some.inj (by unfold focusAt at h; exact h)
    rfl
  | cons k path ih =>
    obtain ⟨hd, children⟩ := o
    unfold focusAt at h
    obtain ⟨child, hchild, hfound⟩ := Option.bind_eq_some_iff.mp h
    obtain ⟨hk, rfl⟩ := List.getElem?_eq_some_iff.mp hchild
    rw [ih hfound, plug, List.reverse_reverse, List.cons_getElem_drop_succ, List.take_append_drop]

/-- The layers of a display. -/
inductive LayerId where
  | actScr
  | topLayer
  | sysLayer
deriving DecidableEq, Repr

def Layers.get (layers : Layers ω) : LayerId → LvObj ω
  | .actScr => layers.actScr
  | .topLayer => layers.topLayer
  | .sysLayer => layers.sysLayer

def Layers.set (layers : Layers ω) (tree : LvObj ω) : LayerId → Layers ω
  | .actScr => { layers with actScr := tree }
  | .topLayer => { layers with topLayer := tree }
  | .sysLayer => { layers with sysLayer := tree }

/-- The objects, the display, its buffer, and the panel with its controller. -/
structure GuiState (C : Controller lcddev) (ω : Type) where
  layers : Layers ω
  disp : LvDisp
  vdb : Vdb
  ctrl : C.State
  panel : Canvas

/-- What happens: a call on an object, or the refresh task. -/
inductive GuiEvent (ω : Type) where
  | call (layer : LayerId) (path : List ℕ) (call : LvCall ω)
  | refr

variable {C : Controller lcddev}

def guiStep (D : Design ω) (g : GuiState C ω) : GuiEvent ω → Option (GuiState C ω)
  | .call layer path call =>
    (focusAt [] (g.layers.get layer) path).bind fun o =>
      (call.run g.disp o).map fun r =>
        { g with layers := g.layers.set r.2.root layer, disp := r.1 }
  | .refr =>
    (lvDispRefrTask D lcddev g.layers g.disp g.vdb).map fun r =>
      { g with
        disp := r.1
        vdb := r.2.1
        ctrl := (C.run g.ctrl r.2.2).1
        panel := applyWrites g.panel (C.run g.ctrl r.2.2).2 }

def guiRun (D : Design ω) (g : GuiState C ω) (events : List (GuiEvent ω)) : Option (GuiState C ω) :=
  events.foldlM (guiStep D) g

/-- The panel shows the objects, except where an area is still invalid. -/
structure GuiState.Synced (ink : ObjHead ω → UInt8 → LvDesign → Pixel → UInt16 → UInt16)
    (g : GuiState C ω) : Prop where
  attached : Attached lcddev g.disp
  marked : Marked lcddev g.disp.inv
  idle : g.vdb.flushing = false
  full : C.Full g.ctrl
  inSync : InSync (screen lcddev) g.panel (g.layers.view ink) (invalid g.disp.inv)

/-- A layer that looks the same at a pixel, whatever is below, leaves the view as it was. -/
theorem view_set {ink : ObjHead ω → UInt8 → LvDesign → Pixel → UInt16 → UInt16} (layers : Layers ω)
    (layer : LayerId) {tree : LvObj ω} {p : Pixel}
    (h : ∀ b, tree.look ink lvOpaCover p b = (layers.get layer).look ink lvOpaCover p b) :
    (layers.set tree layer).view ink p = layers.view ink p := by
  cases layer with
  | actScr => exact congrArg (fun b => layers.sysLayer.look ink lvOpaCover p
      (layers.topLayer.look ink lvOpaCover p b)) (h 0)
  | topLayer => exact congrArg (layers.sysLayer.look ink lvOpaCover p) (h _)
  | sysLayer => exact h _

/-- A call keeps the panel in step with the objects: what it changes is invalid afterwards. -/
theorem guiStep_call {g g' : GuiState C ω} (hs : g.Synced ink) {layer : LayerId} {path : List ℕ}
    {call : LvCall ω} (h : guiStep D g (.call layer path call) = some g') : g'.Synced ink := by
  obtain ⟨o, ho, h⟩ := Option.bind_eq_some_iff.mp h
  obtain ⟨⟨disp', o'⟩, hcall, rfl⟩ := Option.map_eq_some_iff.mp h
  have hedit := call.run_edited ink hs.attached hs.marked hcall
  have hview : ∀ p ∈ screen lcddev, p ∉ invalid disp'.inv →
      (g.layers.set o'.root layer).view ink p = g.layers.view ink p := by
    intro p hscr hout
    have hlook := hedit.covers p hscr hout
    rw [focusAt_root ho] at hlook
    exact view_set g.layers layer hlook
  refine ⟨hedit.attached, hedit.marked, hs.idle, hs.full, (hs.inSync.edit hview).mono ?_⟩
  rintro p ⟨hp | hp, hscr⟩
  · exact hedit.keeps ⟨hp, hscr⟩
  · exact hp

/-- The refresh task ends, keeps the objects and leaves them shown all over the screen. -/
theorem guiStep_refr (hD : DesignContract D ok ink) {g : GuiState C ω} (hs : g.Synced ink)
    (hl : LayersOk D ok g.disp g.layers) :
    ∃ g', guiStep D g .refr = some g' ∧ g'.Synced ink ∧ g'.layers = g.layers ∧
      g'.disp.inv = [] ∧ ∀ p ∈ screen lcddev, g'.panel p = g.layers.view ink p := by
  obtain ⟨vdb', ops, hrun, hidle, hdraws⟩ :=
    lvDispRefrTask_draws hD hs.attached hl C hs.marked hs.idle hs.full
  obtain ⟨hin, hout⟩ := hdraws.panel g.panel
  have hjoins : Joins lcddev g.disp.inv (lvRefrJoinArea g.disp.inv) :=
    lvRefrJoinArea_joins g.disp.inv
  have hsync := hs.inSync.redraw (Set.inter_subset_left.trans hjoins.covers) hin hout
  refine ⟨_, congrArg (Option.map _) hrun,
    ⟨hs.attached.withInv [], Marked.nil, hidle, hdraws.full, ?_⟩,
    rfl, rfl, fun p hscr => hsync p hscr (Set.notMem_empty p)⟩
  exact fun p hscr _ => hsync p hscr (Set.notMem_empty p)

/-- Every event finds the objects placed on an opaque background, and so does what comes last. -/
def OkRun (D : Design ω) (ok : ObjHead ω → Prop) (g : GuiState C ω) : List (GuiEvent ω) → Prop
  | [] => LayersOk D ok g.disp g.layers
  | e :: es => LayersOk D ok g.disp g.layers ∧ ∀ g', guiStep D g e = some g' → OkRun D ok g' es

/-- The display stays in step with the objects over a run. -/
theorem guiRun_synced (hD : DesignContract D ok ink) {events : List (GuiEvent ω)} {g g' : GuiState C ω}
    (hs : g.Synced ink) (hok : OkRun D ok g events) (h : guiRun D g events = some g') :
    g'.Synced ink ∧ LayersOk D ok g'.disp g'.layers := by
  induction events generalizing g with
  | nil =>
    obtain rfl : g = g' := Option.some.inj h
    exact ⟨hs, hok⟩
  | cons e es ih =>
    obtain ⟨hl, hrest⟩ := hok
    obtain ⟨g₁, hstep, hrun⟩ := Option.bind_eq_some_iff.mp h
    refine ih ?_ (hrest g₁ hstep) hrun
    cases e with
    | call layer path call => exact guiStep_call hs hstep
    | refr =>
      obtain ⟨g₂, hstep₂, hsynced, -⟩ := guiStep_refr hD hs hl
      obtain rfl : g₂ = g₁ := Option.some.inj (hstep₂.symm.trans hstep)
      exact hsynced

/-- The display after `lv_disp_drv_register`: `inv_p` is zero and the active screen is marked. -/
def registered (disp : LvDisp) (layers : Layers ω) : LvDisp :=
  lvObjInvalidate { disp with inv := [] } ⟨layers.actScr, []⟩

/-- Whatever the panel shows at first: the first refresh draws all of it. -/
theorem registered_synced (hd : Attached lcddev disp) {layers : Layers ω} (hl : LayersOk D ok disp layers)
    {vdb : Vdb} (hidle : vdb.flushing = false) {ctrl : C.State} (hfull : C.Full ctrl)
    (panel : Canvas) :
    (GuiState.mk (C := C) layers (registered disp layers) vdb ctrl panel).Synced ink := by
  obtain ⟨hmore, hshows⟩ := lvObjInvalidate_marks (hd.withInv []) Marked.nil
    ⟨layers.actScr, []⟩
  refine ⟨hmore.attached, hmore.marked, hidle, hfull, fun p hscr hout => absurd ?_ hout⟩
  refine hshows p hscr ⟨hl.visible, ?_, fun f hf => absurd hf List.not_mem_nil⟩
  have hcoords := contains_of_lvAreaIsIn hl.background ((scrArea_contains hd).mpr hscr)
  have hplaced := hl.actScr
  cases hobj : layers.actScr with
  | mk h children =>
    rw [hobj] at hplaced hcoords
    unfold LvObj.Placed at hplaced
    exact contains_of_lvAreaIsIn hplaced.2.1 hcoords

/-- From the registration of the display on, whatever functions are called on whatever objects and
whenever the refresh task runs in between: when it runs next, it ends, nothing is left to redraw, and
every pixel of the panel has the colour the objects give it. -/
theorem guiRun_refr (hD : DesignContract D ok ink) (hd : Attached lcddev disp) {layers : Layers ω}
    (hl : LayersOk D ok disp layers) {vdb : Vdb} (hidle : vdb.flushing = false) {ctrl : C.State}
    (hfull : C.Full ctrl) (panel : Canvas) (events : List (GuiEvent ω)) {g : GuiState C ω}
    (hok : OkRun D ok (GuiState.mk (C := C) layers (registered disp layers) vdb ctrl panel) events)
    (h : guiRun D (GuiState.mk layers (registered disp layers) vdb ctrl panel) events = some g) :
    ∃ g', guiStep D g .refr = some g' ∧ g'.layers = g.layers ∧ g'.disp.inv = [] ∧
      ∀ p ∈ screen lcddev, g'.panel p = g.layers.view ink p := by
  obtain ⟨hs, hl'⟩ := guiRun_synced hD (registered_synced hd hl hidle hfull panel) hok h
  obtain ⟨g', hstep, -, hlayers, hinv, hpanel⟩ := guiStep_refr hD hs hl'
  exact ⟨g', hstep, hlayers, hinv, hpanel⟩

/-- A white screen under two transparent layers. -/
def whiteLayers : Layers BodyStyle where
  actScr := .mk whiteHead []
  topLayer := .mk { whiteHead with bodyOpa := 0 } []
  sysLayer := .mk { whiteHead with bodyOpa := 0 } []

/-- A blank upright ILI9341 panel, just registered. -/
def whiteGui : GuiState (Ili9341.controller
    (Ili9341.drives_lcdDisplayDirParams ⟨0, 0, 0x9341, 0, 0, 0, 0⟩ rfl 0)) BodyStyle where
  layers := whiteLayers
  disp := registered ⟨240, 320, 4800, []⟩ whiteLayers
  vdb := ⟨fun _ => 0, false⟩
  ctrl := (⟨0, 239, 0, 319, 0, 0, 0, 0, 0⟩ : Ili9341)
  panel := fun _ => 0

/-- What it means for an object to be placed. -/
theorem placed_mk {ok : ObjHead ω → Prop} {h : ObjHead ω} {children : List (LvObj ω)} :
    LvObj.Placed ok (.mk h children) ↔
      ok h ∧ lvAreaIsIn h.coords h.extArea = true ∧ AllPlaced ok children := by
  rw [LvObj.Placed]

/-- A new object with a gradient and a border is put on the screen. -/
theorem guiRun_refr_create :
    let D := lvObjDesign noRoundedParts
    ∃ g g', guiRun D whiteGui [.call .actScr [] (.create 255 redStyle)] = some g ∧
      guiStep D g .refr = some g' ∧
      ∀ p ∈ screen (lcdDisplayDirParams ⟨0, 0, 0x9341, 0, 0, 0, 0⟩ 0),
        g'.panel p = g.layers.view D.ink p := by
  intro D
  have hfull : Ili9341.Full (lcdDisplayDirParams ⟨0, 0, 0x9341, 0, 0, 0, 0⟩ 0)
      ⟨0, 239, 0, 319, 0, 0, 0, 0, 0⟩ := by
    constructor <;> decide
  -- all objects are plain rectangles, and the white screen stays the background
  have hwhite : PlainRect whiteHead := by
    constructor <;> decide
  have hclear : PlainRect { whiteHead with bodyOpa := 0 } := by
    constructor <;> decide
  have hlayer : LvObj.Placed PlainRect (.mk { whiteHead with bodyOpa := 0 } []) :=
    placed_mk.mpr ⟨hclear, rfl, trivial⟩
  have hlayers : LayersOk D PlainRect ⟨240, 320, 4800, []⟩ whiteLayers :=
    ⟨placed_mk.mpr ⟨hwhite, rfl, trivial⟩, hlayer, hlayer, rfl, rfl, rfl, rfl, rfl⟩
  have hnew : PlainRect (newObjHead whiteHead 255 redStyle) := by
    constructor <;> decide
  have hlayers' : LayersOk D PlainRect ⟨240, 320, 4800, []⟩
      { whiteLayers with
        actScr := .mk whiteHead [.mk (newObjHead whiteHead 255 redStyle) []] } :=
    ⟨placed_mk.mpr ⟨hwhite, rfl, placed_mk.mpr ⟨hnew, rfl, trivial⟩, trivial⟩, hlayer, hlayer,
      rfl, rfl, rfl, rfl, rfl⟩
  obtain ⟨g, hrun⟩ : ∃ g, guiRun D whiteGui [.call .actScr [] (.create 255 redStyle)] =
      some g := ⟨_, rfl⟩
  have hok : OkRun D PlainRect whiteGui [.call .actScr [] (.create 255 redStyle)] := by
    refine ⟨hlayers.withInv whiteGui.disp.inv, fun g' h => ?_⟩
    obtain rfl := Option.some.inj h
    exact hlayers'.withInv _
  have hd : Attached (lcdDisplayDirParams ⟨0, 0, 0x9341, 0, 0, 0, 0⟩ 0) ⟨240, 320, 4800, []⟩ := by
    constructor <;> decide
  have hidle : (Vdb.mk (fun _ => 0) false).flushing = false := rfl
  obtain ⟨g', hstep, -, -, hpanel⟩ := guiRun_refr (lvObjDesign_contract noRoundedParts) hd hlayers
    hidle hfull (fun _ => 0) _ hok hrun
  exact ⟨g, g', hrun, hstep, hpanel⟩

end Stm32Board.Gui
