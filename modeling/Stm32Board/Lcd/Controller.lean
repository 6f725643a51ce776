import Stm32Board.Lcd.Defs
import Mathlib.Data.List.Nodup
import Mathlib.Order.Nat

/-!
# What the panel controller does with the bus writes

A `Controller` is what the filling functions assume: the cursor command sets a position, the write
command starts there, and each data write stores one pixel and moves on along the row. `ili9341` is a
controller of this kind, with its address registers and its window.
-/

namespace Stm32Board.Lcd

/-- A pixel, by column and row. -/
abbrev Pixel : Type := ℕ × ℕ

/-- One store into the graphics memory. -/
abbrev PixelStore : Type := Pixel × UInt16

/-- Feed a list of bus writes to a machine and collect the stores it makes. -/
def runBus {S : Type} (step : S → BusOp → S × List PixelStore) :
    S → List BusOp → S × List PixelStore
  | s, [] => (s, [])
  | s, op :: ops =>
    let r := step s op
    let t := runBus step r.1 ops
    (t.1, r.2 ++ t.2)

theorem runBus_append {S : Type} (step : S → BusOp → S × List PixelStore) (s : S)
    (xs ys : List BusOp) :
    runBus step s (xs ++ ys) =
      ((runBus step (runBus step s xs).1 ys).1,
        (runBus step s xs).2 ++ (runBus step (runBus step s xs).1 ys).2) := by
  induction xs generalizing s with
  | nil => rfl
  | cons op ops ih =>
    rw [List.cons_append, runBus, runBus, ih]
    dsimp only
    rw [List.append_assoc]

/-- What is assumed of a controller while its window is the full screen. -/
structure Controller (lcddev : LcdDev) where
  State : Type
  step : State → BusOp → State × List PixelStore
  /-- The window is the full screen. -/
  Full : State → Prop
  /-- The position programmed. -/
  cursor : State → Pixel
  /-- The position of the next store, once a write has been started. -/
  writing : State → Option Pixel
  setCursor : ∀ {s xpos ypos}, Full s → xpos < lcddev.width → ypos < lcddev.height →
    (runBus step s (lcdSetCursor lcddev xpos ypos)).2 = [] ∧
      Full (runBus step s (lcdSetCursor lcddev xpos ypos)).1 ∧
      cursor (runBus step s (lcdSetCursor lcddev xpos ypos)).1 = (xpos.toNat, ypos.toNat)
  writeRamPrepare : ∀ {s}, Full s →
    (runBus step s (lcdWriteRamPrepare lcddev)).2 = [] ∧
      Full (runBus step s (lcdWriteRamPrepare lcddev)).1 ∧
      writing (runBus step s (lcdWriteRamPrepare lcddev)).1 = some (cursor s)
  writeRam : ∀ {s x y} c, Full s → writing s = some (x, y) → x < lcddev.width.toNat →
    (step s (.ram c)).2 = [((x, y), c)] ∧ Full (step s (.ram c)).1 ∧
      (x + 1 < lcddev.width.toNat → writing (step s (.ram c)).1 = some (x + 1, y))

namespace Controller

variable {lcddev : LcdDev} (C : Controller lcddev)

/-- The state and the stores after a list of bus writes. -/
def run (s : C.State) (ops : List BusOp) : C.State × List PixelStore := runBus C.step s ops

/-- A controller takes operations in a row. -/
theorem run_append (s : C.State) (xs ys : List BusOp) :
    C.run s (xs ++ ys) =
      ((C.run (C.run s xs).1 ys).1, (C.run s xs).2 ++ (C.run (C.run s xs).1 ys).2) :=
  runBus_append C.step s xs ys

/-- Writing `n` words from a position stores them along its row. -/
theorem run_ram {s : C.State} {x y n : ℕ} (f : ℕ → UInt16) (hs : C.Full s)
    (hpos : C.writing s = some (x, y)) (hx : x + n ≤ lcddev.width.toNat) :
    (C.run s ((List.range n).flatMap fun j => lcdWrData (f j))).2 =
        (List.range n).map (fun j => ((x + j, y), f j)) ∧
      C.Full (C.run s ((List.range n).flatMap fun j => lcdWrData (f j))).1 := by
  induction n generalizing s x f with
  | zero => exact ⟨rfl, hs⟩
  | succ n ih =>
    obtain ⟨hstore, hfull, hnext⟩ := C.writeRam (f 0) hs hpos (by omega)
    have hops : ((List.range (n + 1)).flatMap fun j => lcdWrData (f j)) =
        .ram (f 0) :: (List.range n).flatMap fun j => lcdWrData (f (j + 1)) := by
      rw [List.range_succ_eq_map, List.flatMap_cons, List.flatMap_map]
      rfl
    have hstores : (List.range (n + 1)).map (fun j => ((x + j, y), f j)) =
        ((x, y), f 0) :: (List.range n).map fun j => ((x + 1 + j, y), f (j + 1)) := by
      rw [List.range_succ_eq_map, List.map_cons, List.map_map]
      congr 1
      refine List.map_congr_left fun j _ => ?_
      rw [Function.comp_apply, Nat.succ_eq_add_one, Nat.add_right_comm, Nat.add_assoc]
    rw [hops, hstores, run, runBus]
    dsimp only
    rw [hstore]
    rcases Nat.eq_zero_or_pos n with rfl | hn
    · exact ⟨rfl, hfull⟩
    · obtain ⟨hrest, hfull'⟩ := ih (fun j => f (j + 1)) hfull (hnext (by omega)) (by omega)
      rw [run] at hrest hfull'
      exact ⟨by rw [hrest]; rfl, hfull'⟩

end Controller

/-! ## Rows and rectangles -/

/-- The bus writes that put `w` words on the row from `(xpos, ypos)` on. -/
def rowOps (lcddev : LcdDev) (xpos ypos : UInt16) (w : ℕ) (f : ℕ → UInt16) : List BusOp :=
  lcdSetCursor lcddev xpos ypos ++ lcdWriteRamPrepare lcddev ++
    (List.range w).flatMap fun j => lcdWrData (f j)

/-- The stores of a rectangle, row by row, with `f i j` in row `i` and column `j`. -/
def rectStores (x y w h : ℕ) (f : ℕ → ℕ → UInt16) : List PixelStore :=
  (List.range h).flatMap fun i => (List.range w).map fun j => ((x + j, y + i), f i j)

namespace Controller

variable {lcddev : LcdDev} (C : Controller lcddev)

/-- A row of data words is stored from the cursor to the right. -/
theorem run_row {s : C.State} {xpos ypos : UInt16} {w : ℕ} (f : ℕ → UInt16) (hs : C.Full s)
    (hx : xpos < lcddev.width) (hy : ypos < lcddev.height)
    (hw : xpos.toNat + w ≤ lcddev.width.toNat) :
    (C.run s (rowOps lcddev xpos ypos w f)).2 =
        (List.range w).map (fun j => ((xpos.toNat + j, ypos.toNat), f j)) ∧
      C.Full (C.run s (rowOps lcddev xpos ypos w f)).1 := by
  obtain ⟨hquiet, hfull, hcursor⟩ := C.setCursor hs hx hy
  obtain ⟨hquiet', hfull', hwriting⟩ := C.writeRamPrepare hfull
  rw [hcursor] at hwriting
  obtain ⟨hstores, hfull''⟩ := C.run_ram f hfull' hwriting hw
  rw [rowOps, C.run_append, C.run_append]
  refine ⟨?_, hfull''⟩
  rw [run, run, run, hquiet, hquiet', List.nil_append, List.nil_append]
  exact hstores

/-- Row after row, the rectangle is stored. -/
theorem run_rect {s : C.State} {xpos ypos : UInt16} {w h : ℕ} (f : ℕ → ℕ → UInt16)
    (hs : C.Full s) (hx : xpos < lcddev.width) (hw : xpos.toNat + w ≤ lcddev.width.toNat)
    (hh : ypos.toNat + h ≤ lcddev.height.toNat) :
    (C.run s ((List.range h).flatMap fun i =>
        rowOps lcddev xpos (ypos + UInt16.ofNat i) w (f i))).2 =
        rectStores xpos.toNat ypos.toNat w h f ∧
      C.Full (C.run s ((List.range h).flatMap fun i =>
        rowOps lcddev xpos (ypos + UInt16.ofNat i) w (f i))).1 := by
  induction h with
  | zero => exact ⟨rfl, hs⟩
  | succ h ih =>
    obtain ⟨hstores, hfull⟩ := ih (by omega)
    have hheight := lcddev.height.toNat_lt
    have hrow : (ypos + UInt16.ofNat h).toNat = ypos.toNat + h := by
      rw [UInt16.toNat_add, UInt16.toNat_ofNat']
      omega
    have hy : ypos + UInt16.ofNat h < lcddev.height := by
      rw [UInt16.lt_iff_toNat_lt, hrow]
      omega
    obtain ⟨hlast, hfull'⟩ := C.run_row (f h) hfull hx hy hw
    rw [List.range_succ, List.flatMap_append, List.flatMap_singleton, C.run_append]
    refine ⟨?_, hfull'⟩
    rw [hstores, hlast, hrow, rectStores, rectStores, List.range_succ, List.flatMap_append,
      List.flatMap_singleton]

end Controller

/-- The rectangle stores its own pixels and no others. -/
theorem mem_rectStores {x y w h a b : ℕ} {f : ℕ → ℕ → UInt16} {c : UInt16} :
    ((a, b), c) ∈ rectStores x y w h f ↔
      x ≤ a ∧ a < x + w ∧ y ≤ b ∧ b < y + h ∧ f (b - y) (a - x) = c := by
  simp only [rectStores, List.mem_flatMap, List.mem_map, List.mem_range, Prod.mk.injEq]
  constructor
  · rintro ⟨i, hi, j, hj, ⟨rfl, rfl⟩, rfl⟩
    rw [Nat.add_sub_cancel_left, Nat.add_sub_cancel_left]
    exact ⟨by omega, by omega, by omega, by omega, rfl⟩
  · rintro ⟨hxa, hax, hyb, hby, rfl⟩
    exact ⟨b - y, by omega, a - x, by omega, ⟨by omega, by omega⟩, rfl⟩

/-- Each pixel of the rectangle is stored once. -/
theorem nodup_rectStores (x y w h : ℕ) (f : ℕ → ℕ → UInt16) :
    ((rectStores x y w h f).map Prod.fst).Nodup := by
  rw [rectStores, List.map_flatMap, List.nodup_flatMap]
  constructor
  · intro i _
    rw [List.map_map]
    refine List.nodup_range.map fun j j' hj => ?_
    have hcol : x + j = x + j' := (Prod.mk.inj hj).1
    omega
  · refine List.nodup_range.imp fun {i i'} hne p hp hp' => ?_
    simp only [List.map_map, List.mem_map, Function.comp_apply] at hp hp'
    obtain ⟨j, -, rfl⟩ := hp
    obtain ⟨j', -, heq⟩ := hp'
    have hrow : y + i' = y + i := (Prod.mk.inj heq).2
    omega

end Stm32Board.Lcd
