import Stm32Board.Lcd.Draw
import Mathlib.Data.List.Nodup
import Mathlib.Data.List.ProdSigma
import Mathlib.Data.List.Range
import Mathlib.Data.Nat.Bitwise
import Mathlib.Tactic.ByContra

/-!
# `LCD_ShowChar`

A glyph is stored by columns, each in whole bytes, and drawn from the top of its first column. After
every pixel the row is compared with the bottom of the screen before it is compared with the bottom of
the cell. For a cell that ends above the bottom of the screen the columns follow each other
(`lcdShowChar_eq_cell`); for one that ends flush with it the function returns at the end of the first
column (`lcdShowChar_eq_column`).
-/

namespace Stm32Board.Lcd

open Common

/-! ## What a character is -/

/-- A byte of the glyph of `num`, or zero outside the table. -/
def fontByte (fonts : AsciiFonts) (size num : UInt8) (t : ℕ) : UInt8 :=
  ((glyphByte fonts size (num - 32) (UInt8.ofNat t)).join).getD 0

/-- The bytes of one column of a glyph. -/
def columnBytes (size : UInt8) : ℕ := (size.toNat + 7) / 8

/-- The pixel of a glyph in column `c` and row `r`. -/
def glyphBit (fonts : AsciiFonts) (size num : UInt8) (c r : ℕ) : Bool :=
  (fontByte fonts size num (c * columnBytes size + r / 8)).toNat.testBit (7 - r % 8)

/-- The pixel of the cell at `(x, y)` in column `c` and row `r`. -/
def cellDot (x y : UInt16) (c r : ℕ) : Dot := (x + UInt16.ofNat c, y + UInt16.ofNat r)

/-- What is drawn for a pixel of a glyph. -/
def showPixel (colors : Colors) (mode : UInt8) (bit : Bool) (dot : Dot) : Option ColorDot :=
  if bit then some (dot, colors.point) else if mode = 0 then some (dot, colors.back) else none

/-- `LCD_ShowChar` ends, draws no pixel twice, and draws those of the cell and no others: in mode 0
all of them, in the two colours, and else the set ones. -/
def CharDrawn (lcddev : LcdDev) (colors : Colors) (fonts : AsciiFonts) (x y : UInt16)
    (num size mode : UInt8) : Prop :=
  ∃ dots, lcdShowChar lcddev colors fonts x y num size mode = some dots ∧
    (dots.map Prod.fst).Nodup ∧
    ∀ d, d ∈ dots ↔ ∃ c < size.toNat / 2, ∃ r < size.toNat,
      showPixel colors mode (glyphBit fonts size num c r) (cellDot x y c r) = some d

/-- Sizes with a font. -/
def FontSize (size : UInt8) : Prop := size = 12 ∨ size = 16 ∨ size = 24 ∨ size = 32

/-! ## The bits of a byte -/

/-- The comparison with `0x80` looks at the highest bit. -/
theorem high_bit (temp : UInt8) : temp &&& 0x80 ≠ 0 ↔ temp.toNat.testBit 7 = true := by
  have hpow : (0x80 : UInt8).toNat = 2 ^ 7 := rfl
  rw [ne_eq, ← UInt8.toNat_inj, UInt8.toNat_and, hpow, UInt8.toNat_zero, Nat.and_two_pow]
  cases temp.toNat.testBit 7 <;> simp

/-- A shift brings up the next one. -/
theorem testBit_shiftLeft_one (temp : UInt8) {i : ℕ} (hi : i < 7) :
    (temp <<< 1).toNat.testBit (7 - i) = temp.toNat.testBit (7 - (i + 1)) := by
  have hone : (1 : UInt8).toNat % 8 = 1 := rfl
  rw [UInt8.toNat_shiftLeft, hone, Nat.testBit_mod_two_pow, Nat.testBit_shiftLeft,
    decide_eq_true (by omega), decide_eq_true (by omega), Bool.true_and, Bool.true_and]
  congr 1

section Cell

variable (lcddev : LcdDev) (colors : Colors) (size mode : UInt8) (y0 : UInt16)

/-- What the loop draws for the bit it has in front is the pixel of that bit. -/
theorem frontDot_eq (temp : UInt8) (dot : Dot) :
    (if temp &&& 0x80 ≠ 0 then [(dot, colors.point)]
      else if mode = 0 then [(dot, colors.back)] else []) =
      (showPixel colors mode (temp.toNat.testBit (7 - 0)) dot).toList := by
  simp only [high_bit, showPixel, Nat.sub_zero]
  split
  · rfl
  · split
    · rfl
    · rfl

/-- The pixels of `k + 1` bits from row `r` on are that of the front bit and those of the bits after
the shift, one row further down. -/
theorem bitDots_succ (temp : UInt8) (x : UInt16) {k r : ℕ} (hk : k < 8) :
    (List.range (k + 1)).filterMap (fun i =>
        showPixel colors mode (temp.toNat.testBit (7 - i)) (x, y0 + UInt16.ofNat (r + i))) =
      (showPixel colors mode (temp.toNat.testBit (7 - 0)) (x, y0 + UInt16.ofNat r)).toList ++
        (List.range k).filterMap (fun i => showPixel colors mode
          ((temp <<< 1).toNat.testBit (7 - i)) (x, y0 + UInt16.ofNat (r + 1 + i))) := by
  have hshift : (List.range k).filterMap (fun i => showPixel colors mode
      ((temp <<< 1).toNat.testBit (7 - i)) (x, y0 + UInt16.ofNat (r + 1 + i))) =
      (List.range k).filterMap (fun i => showPixel colors mode
        (temp.toNat.testBit (7 - (i + 1))) (x, y0 + UInt16.ofNat (r + (i + 1)))) := by
    refine List.filterMap_congr fun i hi => ?_
    have hi' := List.mem_range.mp hi
    have hrow : r + 1 + i = r + (i + 1) := by omega
    rw [testBit_shiftLeft_one temp (by omega), hrow]
  rw [hshift, List.range_succ_eq_map, List.filterMap_cons, List.filterMap_map]
  cases showPixel colors mode (temp.toNat.testBit (7 - 0)) (x, y0 + UInt16.ofNat (r + 0)) <;> rfl

/-- The loop over the bits of a byte that starts in row `r` of a column. It leaves the column at its
last row: to the next one, unless that is off the screen or the column ended at the bottom edge. -/
theorem showCharBits_eq {n : ℕ} (hn : n ≤ 8) (temp : UInt8) (x : UInt16) {r : ℕ}
    (hr : r < size.toNat) (hy : y0.toNat + size.toNat ≤ lcddev.height.toNat) :
    showCharBits lcddev colors size mode y0 n temp x (y0 + UInt16.ofNat r) =
      ((List.range (min n (size.toNat - r))).filterMap fun i =>
          showPixel colors mode (temp.toNat.testBit (7 - i)) (x, y0 + UInt16.ofNat (r + i)),
        if r + n < size.toNat then some (x, y0 + UInt16.ofNat (r + n))
        else if y0.toNat + size.toNat = lcddev.height.toNat ∨ x + 1 ≥ lcddev.width then none
        else some (x + 1, y0)) := by
  -- the induction is on the bits that are left of the byte
  induction n generalizing temp r with
  | zero =>
    rw [showCharBits, Nat.zero_min, if_pos (by omega)]
    rfl
  | succ n ih =>
    have hheight := lcddev.height.toNat_lt
    have hsucc : y0 + UInt16.ofNat r + 1 = y0 + UInt16.ofNat (r + 1) := by
      rw [UInt16.ofNat_add, UInt16.add_assoc]
      rfl
    have hnat : (y0 + UInt16.ofNat (r + 1)).toNat = y0.toNat + (r + 1) := by
      rw [UInt16.toNat_add, UInt16.toNat_ofNat']
      omega
    have hmin : min (n + 1) (size.toNat - r) = min n (size.toNat - (r + 1)) + 1 := by omega
    have hge : y0 + UInt16.ofNat (r + 1) ≥ lcddev.height ↔
        r + 1 = size.toNat ∧ y0.toNat + size.toNat = lcddev.height.toNat := by
      rw [ge_iff_le, UInt16.le_iff_toNat_le, hnat]
      omega
    have hwrap : ((y0 + UInt16.ofNat (r + 1)).toNat : ℤ) - y0.toNat = size.toNat ↔
        r + 1 = size.toNat := by
      rw [hnat]
      omega
    rw [showCharBits]
    dsimp only
    rw [hsucc, frontDot_eq, hmin, bitDots_succ colors mode y0 temp x (by omega)]
    simp only [hge, hwrap]
    by_cases hend : r + 1 = size.toNat
    · -- the last row of the column
      have hnone : min n (size.toNat - (r + 1)) = 0 := by omega
      have hpast : ¬ r + (n + 1) < size.toNat := by omega
      rw [hnone, List.range_zero, List.filterMap_nil, List.append_nil, if_neg hpast]
      by_cases hbottom : y0.toNat + size.toNat = lcddev.height.toNat
      · rw [if_pos ⟨hend, hbottom⟩, if_pos (Or.inl hbottom)]
      · rw [if_neg (fun h => hbottom h.2), if_pos hend]
        by_cases hright : x + 1 ≥ lcddev.width
        · rw [if_pos hright, if_pos (Or.inr hright)]
        · rw [if_neg hright, if_neg (not_or.mpr ⟨hbottom, hright⟩)]
    · rw [if_neg (fun h => hend h.1), if_neg hend, ih (by omega) (temp <<< 1) (by omega)]
      have hlast : r + 1 + n = r + (n + 1) := by omega
      rw [hlast]

end Cell

/-! ## The bytes of a column -/

/-- A font holds the glyphs of the printable characters in whole columns. -/
theorem glyphByte_eq (fonts : AsciiFonts) {size num : UInt8} (hsize : FontSize size)
    (hnum : 32 ≤ num ∧ num ≤ 126) {t : ℕ} (ht : t < (csize size).toNat) :
    glyphByte fonts size (num - 32) (UInt8.ofNat t) = some (some (fontByte fonts size num t)) := by
  have hle := UInt8.le_iff_toNat_le.mp hnum.1
  have hle' := UInt8.le_iff_toNat_le.mp hnum.2
  have h32 : (32 : UInt8).toNat = 32 := rfl
  have h126 : (126 : UInt8).toNat = 126 := rfl
  have hrow : (num - 32).toNat < 95 := by
    rw [UInt8.toNat_sub_of_le _ _ hnum.1]
    omega
  -- the row of the character is in the table, and so is the byte
  have htable : ∀ {n : ℕ} (table : Fin 95 → Fin n → UInt8), t < n → t < 256 →
      ∃ v, tableByte table (num - 32) (UInt8.ofNat t) = some v := by
    intro n table hn h256
    have htoNat : (UInt8.ofNat t).toNat = t := by
      exact UInt8.toNat_ofNat_of_lt' h256
    rw [tableByte, dif_pos ⟨hrow, by omega⟩]
    exact ⟨_, rfl⟩
  have hbyte : ∃ v, glyphByte fonts size (num - 32) (UInt8.ofNat t) = some (some v) := by
    -- one table for each size
    rcases hsize with rfl | rfl | rfl | rfl
    · have ht' : t < 12 := ht
      obtain ⟨v, hv⟩ := htable fonts.asc2_1206 ht' (by omega)
      exact ⟨v, by rw [glyphByte, if_pos rfl, hv]; rfl⟩
    · have ht' : t < 16 := ht
      obtain ⟨v, hv⟩ := htable fonts.asc2_1608 ht' (by omega)
      exact ⟨v, by rw [glyphByte, if_neg (by decide), if_pos rfl, hv]; rfl⟩
    · have ht' : t < 36 := ht
      obtain ⟨v, hv⟩ := htable fonts.asc2_2412 ht' (by omega)
      exact ⟨v, by rw [glyphByte, if_neg (by decide), if_neg (by decide), if_pos rfl, hv]; rfl⟩
    · have ht' : t < 64 := ht
      obtain ⟨v, hv⟩ := htable fonts.asc2_3216 (by omega) (by omega)
      exact ⟨v, by
        rw [glyphByte, if_neg (by decide), if_neg (by decide), if_neg (by decide), if_pos rfl, hv]
        rfl⟩
  obtain ⟨v, hv⟩ := hbyte
  rw [fontByte, hv]
  rfl

/-- The number of bytes the loop counts to is that of the columns' bytes. -/
theorem FontSize.csize_eq {size : UInt8} (h : FontSize size) :
    (csize size).toNat = size.toNat / 2 * columnBytes size := by
  rcases h with rfl | rfl | rfl | rfl <;> rfl

/-- The rows of a column end in its last byte. -/
theorem FontSize.columnBytes_bounds {size : UInt8} (h : FontSize size) :
    0 < columnBytes size ∧ size.toNat ≤ 8 * columnBytes size ∧
      8 * columnBytes size < size.toNat + 8 ∧ 6 ≤ size.toNat / 2 ∧
      size.toNat / 2 * columnBytes size ≤ 64 := by
  rcases h with rfl | rfl | rfl | rfl <;> decide

section Glyph

variable (lcddev : LcdDev) (colors : Colors) (fonts : AsciiFonts) (x y : UInt16)
variable {num size : UInt8} (mode : UInt8)

/-- The pixels drawn for column `c` from row `r` on. -/
def columnFrom (num size : UInt8) (c r : ℕ) : List ColorDot :=
  (List.range (size.toNat - r)).filterMap fun i =>
    showPixel colors mode (glyphBit fonts size num c (r + i)) (cellDot x y c (r + i))

/-- The pixels drawn for byte `b` of column `c`. -/
def byteDots (num size : UInt8) (c b : ℕ) : List ColorDot :=
  (List.range (min 8 (size.toNat - 8 * b))).filterMap fun i =>
    showPixel colors mode
      ((fontByte fonts size num (c * columnBytes size + b)).toNat.testBit (7 - i))
      (x + UInt16.ofNat c, y + UInt16.ofNat (8 * b + i))

/-- The bits of a byte are the next rows of its column. -/
theorem columnFrom_byte {c b : ℕ} (hb : 8 * b < size.toNat) :
    columnFrom colors fonts x y mode num size c (8 * b) =
      byteDots colors fonts x y mode num size c b ++
        columnFrom colors fonts x y mode num size c (8 * (b + 1)) := by
  have hsplit : size.toNat - 8 * b =
      min 8 (size.toNat - 8 * b) + (size.toNat - 8 * (b + 1)) := by omega
  have hfirst : ∀ i ∈ List.range (min 8 (size.toNat - 8 * b)),
      showPixel colors mode (glyphBit fonts size num c (8 * b + i)) (cellDot x y c (8 * b + i)) =
      showPixel colors mode
        ((fontByte fonts size num (c * columnBytes size + b)).toNat.testBit (7 - i))
        (x + UInt16.ofNat c, y + UInt16.ofNat (8 * b + i)) := by
    intro i hi
    have hi' := List.mem_range.mp hi
    have hdiv : (8 * b + i) / 8 = b := by omega
    have hmod : (8 * b + i) % 8 = i := by omega
    rw [glyphBit, hdiv, hmod, cellDot]
  rw [columnFrom, hsplit, List.range_add, List.filterMap_append, List.filterMap_congr hfirst,
    columnFrom, List.filterMap_map]
  refine congrArg₂ (· ++ ·) rfl (List.filterMap_congr fun i hi => ?_)
  have hi' := List.mem_range.mp hi
  have hnext : 8 * b + (min 8 (size.toNat - 8 * b) + i) = 8 * (b + 1) + i := by omega
  rw [Function.comp_apply, hnext]

variable (hsize : FontSize size) (hnum : 32 ≤ num ∧ num ≤ 126)
variable (hy : y.toNat + size.toNat ≤ lcddev.height.toNat)

include hsize hnum hy

/-- Byte `b` of column `c`: the loop goes on with the next byte of the column, or with the next
column, or returns. -/
theorem showCharBytes_byte {c b : ℕ} (fuel : ℕ) (hc : c < size.toNat / 2)
    (hb : b < columnBytes size) :
    showCharBytes lcddev colors fonts (num - 32) size mode y (fuel + 1)
        (UInt8.ofNat (c * columnBytes size + b)) (x + UInt16.ofNat c)
        (y + UInt16.ofNat (8 * b)) =
      (if 8 * b + 8 < size.toNat then
        showCharBytes lcddev colors fonts (num - 32) size mode y fuel
          (UInt8.ofNat (c * columnBytes size + (b + 1))) (x + UInt16.ofNat c)
          (y + UInt16.ofNat (8 * (b + 1)))
      else if y.toNat + size.toNat = lcddev.height.toNat ∨ x + UInt16.ofNat c + 1 ≥ lcddev.width then
        some []
      else
        showCharBytes lcddev colors fonts (num - 32) size mode y fuel
          (UInt8.ofNat (c * columnBytes size + (b + 1))) (x + UInt16.ofNat c + 1) y).map
        (byteDots colors fonts x y mode num size c b ++ ·) := by
  obtain ⟨-, hrows, hrows', -, hsmall⟩ := hsize.columnBytes_bounds
  -- the byte is one of the glyph, and its index fits the counter
  have hbytes : c * columnBytes size + b < (csize size).toNat := by
    have hcol : c * columnBytes size + columnBytes size ≤ size.toNat / 2 * columnBytes size := by
      rw [← Nat.succ_mul]
      exact Nat.mul_le_mul_right _ hc
    rw [hsize.csize_eq]
    omega
  have hlt : UInt8.ofNat (c * columnBytes size + b) < csize size := by
    have hcs := (csize size).toNat_lt
    rw [UInt8.lt_iff_toNat_lt, UInt8.toNat_ofNat', Nat.mod_eq_of_lt (by omega)]
    exact hbytes
  have hnext : UInt8.ofNat (c * columnBytes size + b) + 1 =
      UInt8.ofNat (c * columnBytes size + (b + 1)) := by
    rw [← Nat.add_assoc, UInt8.ofNat_add (c * columnBytes size + b)]
    rfl
  have hbits := showCharBits_eq lcddev colors size mode y le_rfl
    (fontByte fonts size num (c * columnBytes size + b)) (x + UInt16.ofNat c)
    (r := 8 * b) (by omega) hy
  rw [← byteDots] at hbits
  rw [showCharBytes, if_pos hlt, glyphByte_eq fonts hsize hnum hbytes]
  dsimp only
  rw [hbits]
  -- the column goes on, or this was its last byte
  by_cases hmore : 8 * b + 8 < size.toNat
  · rw [if_pos hmore, if_pos hmore, Nat.mul_succ, ← hnext]
  · rw [if_neg hmore, if_neg hmore]
    by_cases hedge : y.toNat + size.toNat = lcddev.height.toNat ∨
        x + UInt16.ofNat c + 1 ≥ lcddev.width
    · rw [if_pos hedge, if_pos hedge, Option.map_some, List.append_nil]
    · rw [if_neg hedge, if_neg hedge, ← hnext]

/-- From byte `b` of column `c`, the `j + 1` bytes left of it draw the rest of the column. -/
theorem showCharBytes_column {c b j : ℕ} (fuel : ℕ) (hc : c < size.toNat / 2)
    (hb : b + j + 1 = columnBytes size) :
    showCharBytes lcddev colors fonts (num - 32) size mode y (fuel + (j + 1))
        (UInt8.ofNat (c * columnBytes size + b)) (x + UInt16.ofNat c)
        (y + UInt16.ofNat (8 * b)) =
      (if y.toNat + size.toNat = lcddev.height.toNat ∨ x + UInt16.ofNat c + 1 ≥ lcddev.width
        then some []
        else showCharBytes lcddev colors fonts (num - 32) size mode y fuel
          (UInt8.ofNat ((c + 1) * columnBytes size)) (x + UInt16.ofNat c + 1) y).map
        (columnFrom colors fonts x y mode num size c (8 * b) ++ ·) := by
  obtain ⟨-, hrows, hrows', -, -⟩ := hsize.columnBytes_bounds
  induction j generalizing b with
  | zero =>
    have hlast : columnFrom colors fonts x y mode num size c (8 * (b + 1)) = [] := by
      rw [columnFrom, Nat.sub_eq_zero_of_le (by omega), List.range_zero, List.filterMap_nil]
    have hcolumn : c * columnBytes size + (b + 1) = (c + 1) * columnBytes size := by
      rw [Nat.succ_mul]
      omega
    rw [showCharBytes_byte lcddev colors fonts x y mode hsize hnum hy _ hc (by omega),
      if_neg (by omega), hcolumn, columnFrom_byte colors fonts x y mode (by omega), hlast,
      List.append_nil]
  | succ j ih =>
    rw [← Nat.add_assoc, showCharBytes_byte lcddev colors fonts x y mode hsize hnum hy _ hc
      (by omega), if_pos (by omega), ih (by omega), Option.map_map,
      columnFrom_byte colors fonts x y mode (b := b) (by omega)]
    refine congrArg (Option.map · _) (funext fun rest => ?_)
    rw [Function.comp_apply, List.append_assoc]

variable (hx : x.toNat + size.toNat / 2 ≤ lcddev.width.toNat)

include hx

/-- Above the bottom of the screen one column follows the other, from column `c` on. -/
theorem showCharBytes_cell {c d fuel : ℕ} (hcd : c + d = size.toNat / 2)
    (hbelow : y.toNat + size.toNat < lcddev.height.toNat)
    (hfuel : d * columnBytes size < fuel) :
    showCharBytes lcddev colors fonts (num - 32) size mode y fuel
        (UInt8.ofNat (c * columnBytes size)) (x + UInt16.ofNat c) y =
      some ((List.range d).flatMap fun i =>
        columnFrom colors fonts x y mode num size (c + i) 0) := by
  obtain ⟨hpos, -, -, -, hsmall⟩ := hsize.columnBytes_bounds
  -- the induction is on the columns that are left
  induction d generalizing c fuel with
  | zero =>
    obtain ⟨fuel, rfl⟩ : ∃ n, fuel = n + 1 := ⟨fuel - 1, by omega⟩
    have hend : ¬ UInt8.ofNat (c * columnBytes size) < csize size := by
      rw [UInt8.lt_iff_toNat_lt, UInt8.toNat_ofNat', hsize.csize_eq, ← hcd, Nat.add_zero]
      have hcolumns : c * columnBytes size ≤ 64 := by
        rw [← Nat.add_zero c, hcd]
        exact hsmall
      omega
    rw [showCharBytes, if_neg hend]
    rfl
  | succ d ih =>
    -- one column, and then the rest from the next one on
    have hcolumn := showCharBytes_column lcddev colors fonts x y mode hsize hnum hy
      (c := c) (b := 0) (j := columnBytes size - 1) (fuel - columnBytes size) (by omega) (by omega)
    have hfuel' : fuel - columnBytes size + (columnBytes size - 1 + 1) = fuel := by
      rw [Nat.succ_mul] at hfuel
      omega
    have hzero : y + UInt16.ofNat (8 * 0) = y := UInt16.add_zero y
    have hnext : x + UInt16.ofNat c + 1 = x + UInt16.ofNat (c + 1) := by
      rw [UInt16.ofNat_add, UInt16.add_assoc]
      rfl
    have hwidth := lcddev.width.toNat_lt
    have hcol : (x + UInt16.ofNat (c + 1)).toNat = x.toNat + (c + 1) := by
      rw [UInt16.toNat_add, UInt16.toNat_ofNat']
      omega
    rw [hfuel', Nat.add_zero, hzero, hnext] at hcolumn
    rw [hcolumn, List.range_succ_eq_map, List.flatMap_cons, List.flatMap_map]
    have hrest : (if y.toNat + size.toNat = lcddev.height.toNat ∨
        x + UInt16.ofNat (c + 1) ≥ lcddev.width then some []
        else showCharBytes lcddev colors fonts (num - 32) size mode y (fuel - columnBytes size)
          (UInt8.ofNat ((c + 1) * columnBytes size)) (x + UInt16.ofNat (c + 1)) y) =
        some ((List.range d).flatMap fun i =>
          columnFrom colors fonts x y mode num size (c + Nat.succ i) 0) := by
      by_cases hright : x + UInt16.ofNat (c + 1) ≥ lcddev.width
      · -- the right edge is only reached behind the last column
        have hlast : d = 0 := by
          rw [ge_iff_le, UInt16.le_iff_toNat_le, hcol] at hright
          omega
        rw [if_pos (Or.inr hright), hlast]
        rfl
      · rw [if_neg (not_or.mpr ⟨by omega, hright⟩), ih (by omega) (by
          rw [Nat.succ_mul] at hfuel
          omega)]
        refine congrArg some (List.flatMap_congr fun i _ => ?_)
        rw [Nat.succ_eq_add_one, Nat.add_right_comm, ← Nat.add_assoc]
    rw [hrest]
    rfl

/-- A cell that ends above the bottom of the screen is drawn column by column. -/
theorem lcdShowChar_eq_cell (hbelow : y.toNat + size.toNat < lcddev.height.toNat) :
    lcdShowChar lcddev colors fonts x y num size mode =
      some ((List.range (size.toNat / 2)).flatMap fun c =>
        columnFrom colors fonts x y mode num size c 0) := by
  obtain ⟨-, -, -, -, hsmall⟩ := hsize.columnBytes_bounds
  have hfuel : size.toNat / 2 * columnBytes size < fuelU8 := by
    rw [fuelU8]
    omega
  have hcell := showCharBytes_cell lcddev colors fonts x y mode hsize hnum hy hx
    (Nat.zero_add _) hbelow hfuel
  have hzero : x + UInt16.ofNat 0 = x := UInt16.add_zero x
  rw [Nat.zero_mul, hzero] at hcell
  simp only [Nat.zero_add] at hcell
  exact hcell

omit hx

/-- A cell that ends flush with the bottom of the screen stops after its first column. -/
theorem lcdShowChar_eq_column (hflush : y.toNat + size.toNat = lcddev.height.toNat) :
    lcdShowChar lcddev colors fonts x y num size mode =
      some (columnFrom colors fonts x y mode num size 0 0) := by
  obtain ⟨hpos, -, -, hwide, hsmall⟩ := hsize.columnBytes_bounds
  have hcolumn := showCharBytes_column lcddev colors fonts x y mode hsize hnum hy
    (c := 0) (b := 0) (j := columnBytes size - 1) (fuelU8 - columnBytes size) (by omega) (by omega)
  have hbytes : columnBytes size ≤ 64 := by
    have hone : 1 * columnBytes size ≤ size.toNat / 2 * columnBytes size :=
      Nat.mul_le_mul_right _ (by omega)
    omega
  have hfuel : fuelU8 - columnBytes size + (columnBytes size - 1 + 1) = fuelU8 := by
    rw [fuelU8]
    omega
  have hzero : y + UInt16.ofNat (8 * 0) = y := UInt16.add_zero y
  have hzero' : x + UInt16.ofNat 0 = x := UInt16.add_zero x
  rw [hfuel, hzero, hzero', Nat.zero_mul, if_pos (Or.inl hflush), Option.map_some,
    List.append_nil] at hcolumn
  exact hcolumn

end Glyph

/-! ## The pixels of a cell -/

/-- A pixel is shown where it is. -/
theorem fst_of_showPixel {colors : Colors} {mode : UInt8} {bit : Bool} {dot : Dot} {d : ColorDot}
    (h : showPixel colors mode bit dot = some d) : d.1 = dot := by
  rw [showPixel] at h
  split at h
  · exact congrArg Prod.fst (Option.some.inj h).symm
  · split at h
    · exact congrArg Prod.fst (Option.some.inj h).symm
    · exact absurd h (by simp)

/-- Nothing is drawn for a clear bit in a mode other than 0, and for no other bit. -/
theorem showPixel_eq_none_iff {colors : Colors} {mode : UInt8} {bit : Bool} {dot : Dot} :
    showPixel colors mode bit dot = none ↔ mode ≠ 0 ∧ bit = false := by
  rw [showPixel]
  cases bit with
  | true => simp
  | false => simp

/-- Pixels inside a cell are different points of the screen. -/
theorem cellDot_inj {x y : UInt16} {c c' r r' : ℕ} (hc : x.toNat + c < 65536)
    (hc' : x.toNat + c' < 65536) (hr : y.toNat + r < 65536) (hr' : y.toNat + r' < 65536)
    (h : cellDot x y c r = cellDot x y c' r') : c = c' ∧ r = r' := by
  obtain ⟨hcol, hrow⟩ := Prod.mk.inj h
  have hcol' := congrArg UInt16.toNat hcol
  have hrow' := congrArg UInt16.toNat hrow
  rw [UInt16.toNat_add, UInt16.toNat_add, UInt16.toNat_ofNat', UInt16.toNat_ofNat'] at hcol' hrow'
  exact ⟨by omega, by omega⟩

section Pixels

variable {lcddev : LcdDev} {colors : Colors} {fonts : AsciiFonts} {x y : UInt16}
  {num size mode : UInt8}

theorem mem_columnFrom {c : ℕ} {d : ColorDot} :
    d ∈ columnFrom colors fonts x y mode num size c 0 ↔ ∃ r < size.toNat,
      showPixel colors mode (glyphBit fonts size num c r) (cellDot x y c r) = some d := by
  simp only [columnFrom, List.mem_filterMap, List.mem_range, Nat.sub_zero, Nat.zero_add]

/-- A column, by the places of its rows. -/
theorem columnFrom_zero (c : ℕ) : columnFrom colors fonts x y mode num size c 0 =
    ((List.range size.toNat).map (Prod.mk c)).filterMap fun p =>
      showPixel colors mode (glyphBit fonts size num p.1 p.2) (cellDot x y p.1 p.2) := by
  rw [List.filterMap_map, columnFrom]
  simp only [Nat.sub_zero, Nat.zero_add]
  rfl

/-- The pixels drawn for different places of a cell are different. -/
theorem nodup_showPixel {places : List (ℕ × ℕ)} (hplaces : places.Nodup)
    (hx : ∀ p ∈ places, x.toNat + p.1 < 65536) (hy : ∀ p ∈ places, y.toNat + p.2 < 65536) :
    ((places.filterMap fun p =>
      showPixel colors mode (glyphBit fonts size num p.1 p.2) (cellDot x y p.1 p.2)).map
        Prod.fst).Nodup := by
  rw [List.Nodup, List.pairwise_map, List.pairwise_filterMap]
  refine hplaces.imp_of_mem fun {p p'} hp hp' hne d hd d' hd' heq => hne ?_
  rw [fst_of_showPixel hd, fst_of_showPixel hd'] at heq
  obtain ⟨hcol, hrow⟩ := cellDot_inj (hx p hp) (hx p' hp') (hy p hp) (hy p' hp') heq
  exact Prod.ext hcol hrow

variable (hsize : FontSize size) (hnum : 32 ≤ num ∧ num ≤ 126)
variable (hx : x.toNat + size.toNat / 2 ≤ lcddev.width.toNat)
variable (hy : y.toNat + size.toNat ≤ lcddev.height.toNat)

include hsize hnum hx hy

/-- Above the bottom of the screen every character is drawn. -/
theorem charDrawn_of_below (hbelow : y.toNat + size.toNat < lcddev.height.toNat) :
    CharDrawn lcddev colors fonts x y num size mode := by
  have hwidth := lcddev.width.toNat_lt
  have hheight := lcddev.height.toNat_lt
  refine ⟨_, lcdShowChar_eq_cell lcddev colors fonts x y mode hsize hnum hy hx hbelow, ?_, ?_⟩
  · have hproduct : ((List.range (size.toNat / 2)).flatMap fun c =>
        columnFrom colors fonts x y mode num size c 0) =
        (List.range (size.toNat / 2) ×ˢ List.range size.toNat).filterMap fun p =>
          showPixel colors mode (glyphBit fonts size num p.1 p.2) (cellDot x y p.1 p.2) := by
      change _ = ((List.range (size.toNat / 2)).flatMap fun c =>
        (List.range size.toNat).map (Prod.mk c)).filterMap _
      rw [List.filterMap_flatMap]
      exact List.flatMap_congr fun c _ => columnFrom_zero c
    rw [hproduct]
    refine nodup_showPixel (List.nodup_range.product List.nodup_range) ?_ ?_
    · intro p hp
      have hp' := List.mem_range.mp (List.mem_product.mp hp).1
      omega
    · intro p hp
      have hp' := List.mem_range.mp (List.mem_product.mp hp).2
      omega
  · intro d
    simp only [List.mem_flatMap, List.mem_range, mem_columnFrom]

/-- Flush with the bottom, only the first column is drawn. -/
theorem charDrawn_iff_of_flush (hflush : y.toNat + size.toNat = lcddev.height.toNat) :
    CharDrawn lcddev colors fonts x y num size mode ↔ mode ≠ 0 ∧
      ∀ c, 1 ≤ c → c < size.toNat / 2 → ∀ r < size.toNat, glyphBit fonts size num c r = false := by
  have hwidth := lcddev.width.toNat_lt
  have hheight := lcddev.height.toNat_lt
  have hwide := hsize.columnBytes_bounds.2.2.2.1
  have hrun := lcdShowChar_eq_column lcddev colors fonts x y mode hsize hnum hy hflush
  constructor
  · rintro ⟨dots, hdots, -, hmem⟩
    obtain rfl := Option.some.inj (hdots.symm.trans hrun)
    -- a pixel due in another column would be one of the first
    have hnone : ∀ c, 1 ≤ c → c < size.toNat / 2 → ∀ r < size.toNat,
        showPixel colors mode (glyphBit fonts size num c r) (cellDot x y c r) = none := by
      intro c hc hc' r hr
      by_contra hsome
      obtain ⟨d, hd⟩ := Option.ne_none_iff_exists'.mp hsome
      obtain ⟨r', hr', hd'⟩ := mem_columnFrom.mp ((hmem d).mpr ⟨c, hc', r, hr, hd⟩)
      have heq := (fst_of_showPixel hd).symm.trans (fst_of_showPixel hd')
      have := (cellDot_inj (by omega) (by omega) (by omega) (by omega) heq).1
      omega
    refine ⟨(showPixel_eq_none_iff.mp (hnone 1 le_rfl (by omega) 0 (by omega))).1, ?_⟩
    exact fun c hc hc' r hr => (showPixel_eq_none_iff.mp (hnone c hc hc' r hr)).2
  · rintro ⟨hmode, hblank⟩
    refine ⟨_, hrun, ?_, fun d => ?_⟩
    · rw [columnFrom_zero]
      refine nodup_showPixel (List.nodup_range.map (Prod.mk_right_injective 0)) ?_ ?_
      · intro p hp
        obtain ⟨r, -, rfl⟩ := List.mem_map.mp hp
        dsimp only
        omega
      · intro p hp
        obtain ⟨r, hr, rfl⟩ := List.mem_map.mp hp
        have hr' := List.mem_range.mp hr
        dsimp only
        omega
    · rw [mem_columnFrom]
      constructor
      · rintro ⟨r, hr, hd⟩
        exact ⟨0, by omega, r, hr, hd⟩
      · rintro ⟨c, hc, r, hr, hd⟩
        rcases Nat.eq_zero_or_pos c with rfl | hpos
        · exact ⟨r, hr, hd⟩
        · rw [showPixel_eq_none_iff.mpr ⟨hmode, hblank c hpos hc r hr⟩] at hd
          exact absurd hd (by simp)

end Pixels

/-- A character is drawn exactly when its cell ends above the bottom of the screen, or nothing is due
right of its first column. -/
theorem charDrawn_iff (lcddev : LcdDev) (colors : Colors) (fonts : AsciiFonts) (x y : UInt16)
    (num size mode : UInt8) (hsize : FontSize size) (hnum : 32 ≤ num ∧ num ≤ 126)
    (hx : x.toNat + size.toNat / 2 ≤ lcddev.width.toNat)
    (hy : y.toNat + size.toNat ≤ lcddev.height.toNat) :
    CharDrawn lcddev colors fonts x y num size mode ↔
      y.toNat + size.toNat < lcddev.height.toNat ∨
        (mode ≠ 0 ∧ ∀ c, 1 ≤ c → c < size.toNat / 2 → ∀ r < size.toNat,
          glyphBit fonts size num c r = false) := by
  -- the cell is inside: it ends above the bottom of the screen or flush with it
  rcases hy.lt_or_eq with hbelow | hflush
  · exact iff_of_true (charDrawn_of_below hsize hnum hx hy hbelow) (Or.inl hbelow)
  · rw [charDrawn_iff_of_flush hsize hnum hx hy hflush]
    constructor
    · exact Or.inr
    · rintro (hbelow | hblank)
      · omega
      · exact hblank

/-- Fonts whose glyphs are full blocks. -/
def blockFonts : AsciiFonts := ⟨fun _ _ => 255, fun _ _ => 255, fun _ _ => 255, fun _ _ => 255⟩

/-- An `A` in the middle of an upright ILI9341. -/
theorem charDrawn_middle :
    CharDrawn (lcdDisplayDirParams ⟨0, 0, 0x9341, 0, 0, 0, 0⟩ 0) ⟨0, 0xFFFF⟩ blockFonts
      100 100 65 16 0 :=
  (charDrawn_iff _ _ _ 100 100 65 16 0 (Or.inr (Or.inl rfl)) ⟨by decide, by decide⟩ (by decide)
    (by decide)).mpr (Or.inl (by decide))

/-- An `A` at the bottom left of it: all but the first column is missing. -/
theorem not_charDrawn_bottom :
    ¬ CharDrawn (lcdDisplayDirParams ⟨0, 0, 0x9341, 0, 0, 0, 0⟩ 0) ⟨0, 0xFFFF⟩ blockFonts
      0 304 65 16 0 := by
  rw [charDrawn_iff_of_flush (Or.inr (Or.inl rfl)) ⟨by decide, by decide⟩ (by decide) (by decide)
    (by decide)]
  exact fun h => h.1 rfl

end Stm32Board.Lcd
