import Stm32Board.Lcd.Char
import Mathlib.Data.List.TakeWhile

/-!
# `LCD_ShowString`

The cursor goes right by a character's width each time; at the right end of the region it goes back to
the start column and down by a line. The start column is kept in a `u8`, so text that starts right of
column 255 goes back to the wrong place, and the ends of the region are compared with a cursor that
can itself wrap at 65536. `stringShown_iff` has both conditions.
-/

namespace Stm32Board.Lcd

open Common

/-! ## What a text is -/

/-- The characters `LCD_ShowString` accepts. -/
def Printable (p : UInt8) : Bool := decide (p ≤ 126 ∧ p ≥ 32)

/-- The characters before the first one that is not printable. -/
def printablePrefix (p : List UInt8) : List UInt8 := p.takeWhile Printable

/-- `width/(size/2)` rounded up: the characters that start on one line of the region. -/
def lineChars (width : UInt16) (size : UInt8) : ℕ :=
  (width.toNat + size.toNat / 2 - 1) / (size.toNat / 2)

/-- `height/size` rounded up: the lines that start in the region. -/
def regionLines (height : UInt16) (size : UInt8) : ℕ := (height.toNat + size.toNat - 1) / size.toNat

/-- Character `k` of a text, on its line and in its column. -/
def textCall (x y width : UInt16) (size : UInt8) (p : List UInt8) (k : ℕ) : CharCall where
  x := UInt16.ofNat (x.toNat + k % lineChars width size * (size.toNat / 2))
  y := UInt16.ofNat (y.toNat + k / lineChars width size * size.toNat)
  num := p.getD k 0
  size := size
  mode := 0

/-- The part of a text that fits into the region. -/
def textCalls (x y width height : UInt16) (size : UInt8) (p : List UInt8) : List CharCall :=
  (List.range (min p.length (regionLines height size * lineChars width size))).map
    (textCall x y width size p)

/-- `LCD_ShowString` shows the printable characters that fit, each at its place; they start inside the
region, and each line starts in its first column. -/
structure StringShown (x y width height : UInt16) (size : UInt8) (p : List UInt8) : Prop where
  calls_eq : lcdShowString x y width height size p =
    textCalls x y width height size (printablePrefix p)
  inside : ∀ call ∈ lcdShowString x y width height size p,
    x.toNat ≤ call.x.toNat ∧ call.x.toNat < x.toNat + width.toNat ∧
      y.toNat ≤ call.y.toNat ∧ call.y.toNat < y.toNat + height.toNat
  lineStart : ∀ (k : ℕ) (call : CharCall), (lcdShowString x y width height size p)[k]? = some call →
    k % lineChars width size = 0 → call.x = x

/-- A region that is not empty, with a font, and whose ends fit in 16 bits. -/
structure Region (x y width height : UInt16) (size : UInt8) : Prop where
  font : FontSize size
  width_pos : 1 ≤ width.toNat
  height_pos : 1 ≤ height.toNat
  right_lt : x.toNat + width.toNat < 65536
  bottom_lt : y.toNat + height.toNat < 65536

/-! ## Lines and columns -/

/-- A quotient rounded up, and its divisor. -/
theorem ceil_bounds {a b : ℕ} (hb : 0 < b) :
    a ≤ (a + b - 1) / b * b ∧ (a + b - 1) / b * b < a + b := by
  have hdiv := Nat.div_add_mod (a + b - 1) b
  have hmod := Nat.mod_lt (a + b - 1) hb
  rw [Nat.mul_comm] at hdiv
  omega

theorem FontSize.bounds {size : UInt8} (h : FontSize size) :
    6 ≤ size.toNat / 2 ∧ size.toNat / 2 ≤ 16 ∧ 12 ≤ size.toNat ∧ size.toNat ≤ 32 := by
  rcases h with rfl | rfl | rfl | rfl <;> decide

section Region

variable {x y width height : UInt16} {size : UInt8} (hregion : Region x y width height size)

include hregion

/-- As many characters as begin in the region's columns. -/
theorem Region.columns :
    width.toNat ≤ lineChars width size * (size.toNat / 2) ∧
      lineChars width size * (size.toNat / 2) < width.toNat + size.toNat / 2 ∧
      0 < lineChars width size := by
  obtain ⟨hwide, -, -, -⟩ := hregion.font.bounds
  obtain ⟨hle, hlt⟩ := ceil_bounds (a := width.toNat) (b := size.toNat / 2) (by omega)
  refine ⟨hle, hlt, Nat.pos_of_ne_zero fun hzero => ?_⟩
  have hwidth := hregion.width_pos
  rw [← lineChars, hzero, Nat.zero_mul] at hle
  omega

/-- As many lines as begin in its rows. -/
theorem Region.rows :
    height.toNat ≤ regionLines height size * size.toNat ∧
      regionLines height size * size.toNat < height.toNat + size.toNat ∧
      0 < regionLines height size := by
  obtain ⟨-, -, htall, -⟩ := hregion.font.bounds
  obtain ⟨hle, hlt⟩ := ceil_bounds (a := height.toNat) (b := size.toNat) (by omega)
  refine ⟨hle, hlt, Nat.pos_of_ne_zero fun hzero => ?_⟩
  have hheight := hregion.height_pos
  rw [← regionLines, hzero, Nat.zero_mul] at hle
  omega

/-- The first line is one of the lines of the region. -/
theorem Region.line_le :
    lineChars width size ≤ regionLines height size * lineChars width size :=
  Nat.le_mul_of_pos_left _ hregion.rows.2.2

/-- A column before the last starts inside the region. -/
theorem Region.column_lt {c : ℕ} (hc : c < lineChars width size) :
    c * (size.toNat / 2) < width.toNat := by
  have hlt := hregion.columns.2.1
  have hnext : (c + 1) * (size.toNat / 2) ≤ lineChars width size * (size.toNat / 2) :=
    Nat.mul_le_mul_right _ hc
  rw [Nat.succ_mul] at hnext
  omega

/-- A line begins above the bottom of the region. -/
theorem Region.row_lt {r : ℕ} (hr : r < regionLines height size) :
    r * size.toNat < height.toNat := by
  have hlt := hregion.rows.2.1
  have hnext : (r + 1) * size.toNat ≤ regionLines height size * size.toNat :=
    Nat.mul_le_mul_right _ hr
  rw [Nat.succ_mul] at hnext
  omega

/-- The ends of the region, as the function computes them. -/
theorem Region.ends :
    (width + x).toNat = x.toNat + width.toNat ∧ (height + y).toNat = y.toNat + height.toNat := by
  have hright := hregion.right_lt
  have hbottom := hregion.bottom_lt
  rw [UInt16.toNat_add, UInt16.toNat_add]
  omega

/-- The places of the characters that fit. -/
theorem Region.textCall_place (p : List UInt8) {k : ℕ}
    (hk : k < regionLines height size * lineChars width size) :
    (textCall x y width size p k).x.toNat =
        x.toNat + k % lineChars width size * (size.toNat / 2) ∧
      (textCall x y width size p k).y.toNat =
        y.toNat + k / lineChars width size * size.toNat ∧
      k % lineChars width size * (size.toNat / 2) < width.toNat ∧
      k / lineChars width size * size.toNat < height.toNat := by
  have hright := hregion.right_lt
  have hbottom := hregion.bottom_lt
  have hcol := hregion.column_lt (Nat.mod_lt k hregion.columns.2.2)
  have hrow := hregion.row_lt ((Nat.div_lt_iff_lt_mul hregion.columns.2.2).mpr hk)
  exact ⟨UInt16.toNat_ofNat_of_lt' (show _ < 65536 by omega),
    UInt16.toNat_ofNat_of_lt' (show _ < 65536 by omega), hcol, hrow⟩

/-- What the closed form says about the places. -/
theorem Region.stringShown_of_eq {p : List UInt8}
    (h : lcdShowString x y width height size p =
      textCalls x y width height size (printablePrefix p)) :
    StringShown x y width height size p := by
  refine ⟨h, fun call hcall => ?_, fun k call hcall hk => ?_⟩
  · rw [h, textCalls, List.mem_map] at hcall
    obtain ⟨k, hk, rfl⟩ := hcall
    have hk' := List.mem_range.mp hk
    obtain ⟨hcol, hrow, hwidth, hheight⟩ :=
      hregion.textCall_place (printablePrefix p) (hk'.trans_le (min_le_right _ _))
    rw [hcol, hrow]
    omega
  · rw [h, textCalls, List.getElem?_map] at hcall
    obtain ⟨j, hj, rfl⟩ := Option.map_eq_some_iff.mp hcall
    obtain ⟨hlt, rfl⟩ := List.getElem?_eq_some_iff.mp hj
    rw [List.getElem_range, textCall, hk, Nat.zero_mul, Nat.add_zero]
    exact UInt16.ofNat_toNat

end Region

/-! ## One character -/

section Round

variable {width height : UInt16} {size x0 : UInt8} {x y : UInt16} {p : UInt8} {ps : List UInt8}

/-- Inside the region the character is shown at the cursor. -/
theorem showStringLoop_show (hp : Printable p = true) (hx : x < width) (hy : y < height) :
    showStringLoop width height size x0 x y (p :: ps) =
      { x := x, y := y, num := p, size := size, mode := 0 } ::
        showStringLoop width height size x0 (x + (size / 2).toUInt16) y ps := by
  have hx' : ¬ x ≥ width := UInt16.not_le.mpr hx
  have hy' : ¬ y ≥ height := UInt16.not_le.mpr hy
  rw [showStringLoop, if_pos (of_decide_eq_true hp)]
  dsimp only
  rw [if_neg hx', if_neg hy']

/-- At the right end it is shown at the start of the next line. -/
theorem showStringLoop_wrap (hp : Printable p = true) (hx : width ≤ x)
    (hy : y + size.toUInt16 < height) :
    showStringLoop width height size x0 x y (p :: ps) =
      { x := x0.toUInt16, y := y + size.toUInt16, num := p, size := size, mode := 0 } ::
        showStringLoop width height size x0 (x0.toUInt16 + (size / 2).toUInt16)
          (y + size.toUInt16) ps := by
  have hy' : ¬ y + size.toUInt16 ≥ height := UInt16.not_le.mpr hy
  rw [showStringLoop, if_pos (of_decide_eq_true hp)]
  dsimp only
  rw [if_pos hx, if_neg hy']

/-- At the bottom the text ends. -/
theorem showStringLoop_stop (hp : Printable p = true) (hx : width ≤ x)
    (hy : height ≤ y + size.toUInt16) :
    showStringLoop width height size x0 x y (p :: ps) = [] := by
  rw [showStringLoop, if_pos (of_decide_eq_true hp)]
  dsimp only
  rw [if_pos hx, if_pos hy]

end Round

/-- Only the printable characters in front count. -/
theorem showStringLoop_front (width height : UInt16) (size x0 : UInt8) (x y : UInt16)
    (p : List UInt8) :
    showStringLoop width height size x0 x y p =
      showStringLoop width height size x0 x y (printablePrefix p) := by
  induction p generalizing x y with
  | nil => rfl
  | cons c p ih =>
    rw [printablePrefix, List.takeWhile_cons]
    by_cases hc : Printable c = true
    · rw [if_pos hc, ← printablePrefix, showStringLoop, showStringLoop]
      dsimp only
      rw [ih]
    · rw [if_neg hc, showStringLoop, showStringLoop, if_neg fun h => hc (decide_eq_true h)]

/-- The front of a string that is drawn is printable. -/
theorem printable_of_mem_front {p : List UInt8} {c : UInt8} (h : c ∈ printablePrefix p) :
    Printable c = true :=
  List.mem_takeWhile_imp h

/-! ## The run -/

/-- The cursor before character `k`: right of the character before. -/
def textCursor (x y width : UInt16) (size : UInt8) : ℕ → UInt16 × UInt16
  | 0 => (x, y)
  | k + 1 =>
    (UInt16.ofNat (x.toNat + (k % lineChars width size + 1) * (size.toNat / 2)),
      UInt16.ofNat (y.toNat + k / lineChars width size * size.toNat))

/-- The rest of the run from character `k` on. -/
def textRest (x y width height : UInt16) (size : UInt8) (q : List UInt8) (k : ℕ) :
    List CharCall :=
  showStringLoop (width + x) (height + y) size x.toUInt8 (textCursor x y width size k).1
    (textCursor x y width size k).2 (q.drop k)

section Run

variable {x y width height : UInt16} {size : UInt8} {q : List UInt8}

/-- A line that is not the first is entered by going back to the start column. -/
def LineReturns (x width : UInt16) (size : UInt8) : Prop :=
  x.toNat + lineChars width size * (size.toNat / 2) < 65536 ∧ x.toNat < 256

/-- Half a size is the same in 16 bits. -/
theorem toUInt16_half (size : UInt8) : (size / 2).toUInt16 = UInt16.ofNat (size.toNat / 2) := by
  have htwo : (2 : UInt8).toNat = 2 := rfl
  have hlt := size.toNat_lt
  apply UInt16.toNat_inj.mp
  rw [UInt8.toNat_toUInt16, UInt8.toNat_div, htwo,
    UInt16.toNat_ofNat_of_lt' (show _ < 65536 by omega)]

/-- And so is the size. -/
theorem toUInt16_size (size : UInt8) : size.toUInt16 = UInt16.ofNat size.toNat := by
  have hlt := size.toNat_lt
  apply UInt16.toNat_inj.mp
  rw [UInt8.toNat_toUInt16, UInt16.toNat_ofNat_of_lt' (show _ < 65536 by omega)]

/-- The cursor moves on by one character. -/
theorem textCall_next (x y width : UInt16) (size : UInt8) (q : List UInt8) (k : ℕ) :
    (textCall x y width size q k).x + (size / 2).toUInt16 = (textCursor x y width size (k + 1)).1 ∧
      (textCall x y width size q k).y = (textCursor x y width size (k + 1)).2 := by
  refine ⟨?_, rfl⟩
  rw [textCall, textCursor, toUInt16_half, ← UInt16.ofNat_add, Nat.succ_mul, Nat.add_assoc]

/-- With the text used up nothing more is shown. -/
theorem textRest_length (x y width height : UInt16) (size : UInt8) (q : List UInt8) :
    textRest x y width height size q q.length = [] := by
  rw [textRest, List.drop_length, showStringLoop]

/-- The printable character a run goes on with. -/
theorem drop_cons (hq : ∀ c ∈ q, Printable c = true) {k : ℕ} (hlt : k < q.length) :
    ∃ c, Printable c = true ∧ q.drop k = c :: q.drop (k + 1) :=
  ⟨q[k], hq _ (List.getElem_mem hlt), List.drop_eq_getElem_cons hlt⟩

variable (hregion : Region x y width height size)

include hregion

/-- Before the end of the line the cursor is at the next character's place. -/
theorem textCursor_same {k : ℕ} (hk : k < regionLines height size * lineChars width size)
    (hcol : k = 0 ∨ k % lineChars width size ≠ 0) :
    (textCursor x y width size k).1 = (textCall x y width size q k).x ∧
      (textCursor x y width size k).2 = (textCall x y width size q k).y := by
  cases k with
  | zero =>
    rw [textCursor, textCall, Nat.zero_mod, Nat.zero_div, Nat.zero_mul, Nat.zero_mul, Nat.add_zero,
      Nat.add_zero, UInt16.ofNat_toNat, UInt16.ofNat_toNat]
    exact ⟨rfl, rfl⟩
  | succ j =>
    obtain ⟨hmod, hdiv⟩ := succ_mod_div hregion.columns.2.2 j
    have hne : j % lineChars width size + 1 ≠ lineChars width size := by
      intro heq
      rw [if_pos heq] at hmod
      rcases hcol with hzero | hpos
      · exact absurd hzero (Nat.succ_ne_zero j)
      · exact hpos hmod
    rw [if_neg hne] at hmod hdiv
    rw [textCursor, textCall, hmod, hdiv]
    exact ⟨rfl, rfl⟩

/-- At the end of a line the cursor is right of the region, or has wrapped. -/
theorem textCursor_end {k : ℕ} (hpos : k ≠ 0) (hcol : k % lineChars width size = 0) :
    (textCursor x y width size k).1 =
        UInt16.ofNat (x.toNat + lineChars width size * (size.toNat / 2)) ∧
      (textCursor x y width size k).2 + size.toUInt16 =
        UInt16.ofNat (y.toNat + k / lineChars width size * size.toNat) := by
  obtain ⟨j, rfl⟩ := Nat.exists_eq_succ_of_ne_zero hpos
  obtain ⟨hmod, hdiv⟩ := succ_mod_div hregion.columns.2.2 j
  have heq : j % lineChars width size + 1 = lineChars width size := by
    by_contra hne
    rw [if_neg hne] at hmod
    rw [Nat.succ_eq_add_one, hmod] at hcol
    exact absurd hcol (Nat.succ_ne_zero _)
  rw [if_pos heq] at hdiv
  rw [Nat.succ_eq_add_one, textCursor, heq, hdiv, toUInt16_size, ← UInt16.ofNat_add, Nat.succ_mul,
    Nat.add_assoc]
  exact ⟨rfl, rfl⟩

/-- A cursor that has not wrapped is past the right end. -/
theorem Region.past_right (hfits : x.toNat + lineChars width size * (size.toNat / 2) < 65536) :
    width + x ≤ UInt16.ofNat (x.toNat + lineChars width size * (size.toNat / 2)) := by
  have hcolumns := hregion.columns.1
  rw [UInt16.le_iff_toNat_le, hregion.ends.1, UInt16.toNat_ofNat_of_lt' hfits]
  omega

/-- While the line returns are right, the next character is shown at its place. -/
theorem textRest_succ (hq : ∀ c ∈ q, Printable c = true) {k : ℕ} (hlt : k < q.length)
    (hk : k < regionLines height size * lineChars width size)
    (hline : k < lineChars width size ∨ LineReturns x width size) :
    textRest x y width height size q k =
      textCall x y width size q k :: textRest x y width height size q (k + 1) := by
  obtain ⟨hcallx, hcally, hcolumn, hrow⟩ := hregion.textCall_place q hk
  obtain ⟨hnextx, hnexty⟩ := textCall_next x y width size q k
  have hdrop : q.drop k = q.getD k 0 :: q.drop (k + 1) := by
    rw [List.drop_eq_getElem_cons hlt, List.getD_eq_getElem _ _ hlt]
  have hprint : Printable (q.getD k 0) = true := by
    rw [List.getD_eq_getElem _ _ hlt]
    exact hq _ (List.getElem_mem hlt)
  have hinside : (textCall x y width size q k).x < width + x ∧
      (textCall x y width size q k).y < height + y := by
    rw [UInt16.lt_iff_toNat_lt, UInt16.lt_iff_toNat_lt, hcallx, hcally, hregion.ends.1,
      hregion.ends.2]
    omega
  rw [textRest, textRest, hdrop]
  by_cases hcol : k = 0 ∨ k % lineChars width size ≠ 0
  · obtain ⟨hx, hy⟩ := textCursor_same (q := q) hregion hk hcol
    rw [hx, hy, showStringLoop_show hprint hinside.1 hinside.2, hnextx, hnexty]
    rfl
  · -- the start of another line
    obtain ⟨hpos, hmod⟩ := not_or.mp hcol
    have hzero := not_not.mp hmod
    obtain ⟨hx, hy⟩ := textCursor_end hregion hpos hzero
    have hreturns : LineReturns x width size := by
      rcases hline with hfirst | hreturns
      · rw [Nat.mod_eq_of_lt hfirst] at hzero
        exact absurd hzero hpos
      · exact hreturns
    have hstart : x.toUInt8.toUInt16 = (textCall x y width size q k).x := by
      rw [textCall, hzero, Nat.zero_mul, Nat.add_zero, UInt16.ofNat_toNat]
      apply UInt16.toNat_inj.mp
      rw [UInt8.toNat_toUInt16, UInt16.toNat_toUInt8]
      exact Nat.mod_eq_of_lt hreturns.2
    have hdown : (textCursor x y width size k).2 + size.toUInt16 =
        (textCall x y width size q k).y := hy
    rw [showStringLoop_wrap hprint (by rw [hx]; exact hregion.past_right hreturns.1)
      (by rw [hdown]; exact hinside.2), hdown, hstart, hnextx, hnexty]
    rfl

/-- So the first `k` characters are. -/
theorem lcdShowString_eq_append (hq : ∀ c ∈ q, Printable c = true) {k : ℕ} (hle : k ≤ q.length)
    (hk : k ≤ regionLines height size * lineChars width size)
    (hline : k ≤ lineChars width size ∨ LineReturns x width size) :
    lcdShowString x y width height size q =
      (List.range k).map (textCall x y width size q) ++ textRest x y width height size q k := by
  induction k with
  | zero => rfl
  | succ k ih =>
    rw [ih (by omega) (by omega) (hline.imp_left (by omega)),
      textRest_succ hregion hq (by omega) (by omega) (hline.imp_left (by omega)), List.range_succ,
      List.map_append, List.append_assoc]
    rfl

/-- Below the last line the text ends, unless the cursor has wrapped there. -/
theorem textRest_end (hq : ∀ c ∈ q, Printable c = true)
    (hlt : regionLines height size * lineChars width size < q.length)
    (hright : x.toNat + lineChars width size * (size.toNat / 2) < 65536)
    (hbottom : y.toNat + regionLines height size * size.toNat < 65536) :
    textRest x y width height size q (regionLines height size * lineChars width size) = [] := by
  obtain ⟨c, hc, hdrop⟩ := drop_cons hq hlt
  have hrows := hregion.rows
  have hpos : regionLines height size * lineChars width size ≠ 0 :=
    Nat.mul_ne_zero (by omega) (by have := hregion.columns; omega)
  obtain ⟨hx, hy⟩ := textCursor_end hregion hpos (Nat.mul_mod_left _ _)
  rw [Nat.mul_div_cancel _ hregion.columns.2.2] at hy
  rw [textRest, hdrop]
  apply showStringLoop_stop hc
  · rw [hx]
    exact hregion.past_right hright
  · rw [hy, UInt16.le_iff_toNat_le, hregion.ends.2, UInt16.toNat_ofNat_of_lt' hbottom]
    omega

/-- A cursor that wraps at the right end goes on in its line. -/
theorem textRest_wrapped_right (hq : ∀ c ∈ q, Printable c = true)
    (hlt : lineChars width size < q.length)
    (hright : 65536 ≤ x.toNat + lineChars width size * (size.toNat / 2)) :
    ∃ call rest, textRest x y width height size q (lineChars width size) = call :: rest ∧
      call.y = y := by
  obtain ⟨c, hc, hdrop⟩ := drop_cons hq hlt
  obtain ⟨-, hwide, hpos⟩ := hregion.columns
  obtain ⟨hsmall, hsmall', -, -⟩ := hregion.font.bounds
  obtain ⟨j, hj⟩ := Nat.exists_eq_succ_of_ne_zero hpos.ne'
  have hregion' := hregion.right_lt
  have hbottom := hregion.bottom_lt
  have hheight := hregion.height_pos
  have hrow : (textCursor x y width size (lineChars width size)).2 = y := by
    have hj' : j / lineChars width size = 0 := Nat.div_eq_of_lt (by omega)
    have hrow' : (textCursor x y width size (j + 1)).2 = y := by
      simp only [textCursor, hj', Nat.zero_mul, Nat.add_zero, UInt16.ofNat_toNat]
    rwa [← Nat.succ_eq_add_one, ← hj] at hrow'
  have hcol := (textCursor_end hregion hpos.ne' (Nat.mod_self _)).1
  rw [textRest, hdrop, hcol, hrow, showStringLoop_show hc]
  · exact ⟨_, _, rfl, rfl⟩
  · rw [UInt16.lt_iff_toNat_lt, hregion.ends.1, UInt16.toNat_ofNat']
    omega
  · rw [UInt16.lt_iff_toNat_lt, hregion.ends.2]
    omega

/-- The second line starts in the start column as far as that fits in a `u8`. -/
theorem textRest_second_line (hq : ∀ c ∈ q, Printable c = true)
    (hlt : lineChars width size < q.length) (hlines : 2 ≤ regionLines height size)
    (hright : x.toNat + lineChars width size * (size.toNat / 2) < 65536) :
    ∃ call rest, textRest x y width height size q (lineChars width size) = call :: rest ∧
      call.x = x.toUInt8.toUInt16 := by
  obtain ⟨c, hc, hdrop⟩ := drop_cons hq hlt
  have hpos := hregion.columns.2.2
  have hbottom := hregion.bottom_lt
  have hrow := hregion.row_lt (r := 1) (by omega)
  obtain ⟨hx, hy⟩ := textCursor_end hregion hpos.ne' (Nat.mod_self _)
  rw [Nat.div_self hpos] at hy
  rw [textRest, hdrop, showStringLoop_wrap hc]
  · exact ⟨_, _, rfl, rfl⟩
  · rw [hx]
    exact hregion.past_right hright
  · rw [hy, UInt16.lt_iff_toNat_lt, hregion.ends.2,
      UInt16.toNat_ofNat_of_lt' (show _ < 65536 by omega)]
    omega

/-- A cursor that wraps at the bottom goes on at the top of the screen. -/
theorem textRest_wrapped_bottom (hq : ∀ c ∈ q, Printable c = true)
    (hlt : regionLines height size * lineChars width size < q.length)
    (hright : x.toNat + lineChars width size * (size.toNat / 2) < 65536)
    (hbottom : 65536 ≤ y.toNat + regionLines height size * size.toNat) :
    textRest x y width height size q (regionLines height size * lineChars width size) ≠ [] := by
  obtain ⟨c, hc, hdrop⟩ := drop_cons hq hlt
  obtain ⟨-, hlow, hpos⟩ := hregion.rows
  obtain ⟨-, -, hsmall, hsmall'⟩ := hregion.font.bounds
  have hregion' := hregion.bottom_lt
  have hne : regionLines height size * lineChars width size ≠ 0 :=
    Nat.mul_ne_zero hpos.ne' hregion.columns.2.2.ne'
  obtain ⟨hx, hy⟩ := textCursor_end hregion hne (Nat.mul_mod_left _ _)
  rw [Nat.mul_div_cancel _ hregion.columns.2.2] at hy
  rw [textRest, hdrop, showStringLoop_wrap hc]
  · exact List.cons_ne_nil _ _
  · rw [hx]
    exact hregion.past_right hright
  · rw [hy, UInt16.lt_iff_toNat_lt, hregion.ends.2, UInt16.toNat_ofNat']
    omega

end Run

/-! ## The text -/

/-- When a text of `n` printable characters keeps to its region: it fits on the first line; or the
cursor does not wrap at the right end, the start column fits in a `u8` as far as it is needed again,
and for a text that does not fit the cursor does not wrap at the bottom. -/
def TextFits (x y width height : UInt16) (size : UInt8) (n : ℕ) : Prop :=
  n ≤ lineChars width size ∨
    (x.toNat + lineChars width size * (size.toNat / 2) < 65536 ∧
      (2 ≤ regionLines height size → x.toNat < 256) ∧
      (regionLines height size * lineChars width size < n →
        y.toNat + regionLines height size * size.toNat < 65536))

section Text

variable {x y width height : UInt16} {size : UInt8} {q : List UInt8}

/-- With one line only, the characters that fit are those of the first line. -/
theorem oneLine_or_returns
    (hright : x.toNat + lineChars width size * (size.toNat / 2) < 65536)
    (hcolumn : 2 ≤ regionLines height size → x.toNat < 256) :
    regionLines height size * lineChars width size ≤ lineChars width size ∨
      LineReturns x width size := by
  rcases Nat.lt_or_ge (regionLines height size) 2 with hone | htwo
  · have hle : regionLines height size * lineChars width size ≤ 1 * lineChars width size :=
      Nat.mul_le_mul_right _ (by omega)
    rw [Nat.one_mul] at hle
    exact Or.inl hle
  · exact Or.inr ⟨hright, hcolumn htwo⟩

variable (hregion : Region x y width height size) (hq : ∀ c ∈ q, Printable c = true)

include hregion hq

/-- A text that fits is shown character by character. -/
theorem lcdShowString_eq_of_fits (h : TextFits x y width height size q.length) :
    lcdShowString x y width height size q = textCalls x y width height size q := by
  rcases h with hfirst | ⟨hright, hcolumn, hbottom⟩
  · have hle := hfirst.trans hregion.line_le
    rw [lcdShowString_eq_append hregion hq le_rfl hle (Or.inl hfirst), textRest_length,
      List.append_nil, textCalls, min_eq_left hle]
  · have hline := oneLine_or_returns hright hcolumn
    rcases Nat.lt_or_ge (regionLines height size * lineChars width size) q.length with hlt | hle
    · rw [lcdShowString_eq_append hregion hq hlt.le le_rfl hline,
        textRest_end hregion hq hlt hright (hbottom hlt), List.append_nil, textCalls,
        min_eq_right hlt.le]
    · rw [lcdShowString_eq_append hregion hq le_rfl hle (hline.imp_left hle.trans),
        textRest_length, List.append_nil, textCalls, min_eq_left hle]

/-- When the loop shows the closed form, the call after the first line is that of the closed form. -/
theorem textRest_head (h : lcdShowString x y width height size q = textCalls x y width height size q)
    (hlong : lineChars width size < q.length) {call : CharCall} {rest : List CharCall}
    (hrest : textRest x y width height size q (lineChars width size) = call :: rest) :
    2 ≤ regionLines height size ∧ call = textCall x y width size q (lineChars width size) := by
  have hlines := hregion.rows.2.2
  have hline := lcdShowString_eq_append hregion hq hlong.le hregion.line_le (Or.inl le_rfl)
  have hget := congrArg (fun calls : List CharCall => calls[lineChars width size]?)
    (hline.symm.trans h)
  rw [hrest, List.getElem?_append_right (by simp), List.length_map, List.length_range,
    Nat.sub_self, List.getElem?_cons_zero, textCalls, List.getElem?_map] at hget
  obtain ⟨j, hj, hcall⟩ := Option.map_eq_some_iff.mp hget.symm
  obtain ⟨hlt, rfl⟩ := List.getElem?_eq_some_iff.mp hj
  rw [List.getElem_range] at hcall
  rw [List.length_range] at hlt
  refine ⟨?_, hcall.symm⟩
  by_contra hfew
  have hsingle : regionLines height size = 1 := by omega
  rw [hsingle, Nat.one_mul] at hlt
  omega

/-- And one that is fits. -/
theorem fits_of_lcdShowString_eq
    (h : lcdShowString x y width height size q = textCalls x y width height size q) :
    TextFits x y width height size q.length := by
  obtain ⟨-, -, hpos⟩ := hregion.columns
  -- a text of more than one line shows where each cursor went wrong
  rcases Nat.lt_or_ge (lineChars width size) q.length with hlong | hshort
  · have hright : x.toNat + lineChars width size * (size.toNat / 2) < 65536 := by
      by_contra hwraps
      obtain ⟨call, rest, hrest, hy⟩ :=
        textRest_wrapped_right hregion hq hlong (not_lt.mp hwraps)
      obtain ⟨htwo, rfl⟩ := textRest_head hregion hq h hlong hrest
      have hplace := (hregion.textCall_place q (k := lineChars width size) (by
        calc lineChars width size < 2 * lineChars width size := by omega
          _ ≤ regionLines height size * lineChars width size :=
            Nat.mul_le_mul_right _ htwo)).2.1
      have htall := hregion.font.bounds.2.2.1
      rw [hy, Nat.div_self hpos] at hplace
      omega
    have hcolumn : 2 ≤ regionLines height size → x.toNat < 256 := by
      intro htwo
      obtain ⟨call, rest, hrest, hx⟩ := textRest_second_line hregion hq hlong htwo hright
      obtain ⟨-, rfl⟩ := textRest_head hregion hq h hlong hrest
      have htoNat := congrArg UInt16.toNat hx
      rw [textCall, Nat.mod_self, Nat.zero_mul, Nat.add_zero, UInt16.ofNat_toNat,
        UInt8.toNat_toUInt16, UInt16.toNat_toUInt8] at htoNat
      dsimp only at htoNat
      omega
    refine Or.inr ⟨hright, hcolumn, fun hmany => ?_⟩
    by_contra hwraps
    have hall := lcdShowString_eq_append hregion hq hmany.le le_rfl
      (oneLine_or_returns hright hcolumn)
    rw [h, textCalls, min_eq_right hmany.le, List.self_eq_append_right] at hall
    exact textRest_wrapped_bottom hregion hq hmany hright (not_lt.mp hwraps) hall
  · exact Or.inl hshort

end Text

/-- A text is shown as it should be exactly when its printable part keeps to the region. -/
theorem stringShown_iff (x y width height : UInt16) (size : UInt8) (p : List UInt8)
    (hregion : Region x y width height size) :
    StringShown x y width height size p ↔
      TextFits x y width height size (printablePrefix p).length := by
  have hfront : lcdShowString x y width height size p =
      lcdShowString x y width height size (printablePrefix p) :=
    showStringLoop_front _ _ _ _ _ _ p
  constructor
  · intro h
    exact fits_of_lcdShowString_eq hregion (fun c hc => printable_of_mem_front hc)
      (hfront.symm.trans h.calls_eq)
  · intro h
    exact hregion.stringShown_of_eq (hfront.trans
      (lcdShowString_eq_of_fits hregion (fun c hc => printable_of_mem_front hc) h))

/-- Two lines at the left of the screen. -/
theorem stringShown_left : StringShown 10 20 16 32 16 [72, 101, 108, 108] :=
  (stringShown_iff 10 20 16 32 16 [72, 101, 108, 108]
    ⟨Or.inr (Or.inl rfl), by decide, by decide, by decide, by decide⟩).mpr
    (Or.inr ⟨by decide, by decide, by decide⟩)

/-- The same text from column 300 on: the second line starts in column 44. -/
theorem not_stringShown_right : ¬ StringShown 300 20 16 32 16 [72, 101, 108, 108] := by
  intro h
  have hstart := h.lineStart 2 _ rfl rfl
  exact absurd hstart (by decide)

end Stm32Board.Lcd
