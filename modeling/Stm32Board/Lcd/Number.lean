import Stm32Board.Lcd.Draw
import Mathlib.Tactic.IntervalCases

/-!
# `LCD_ShowNum` and `LCD_ShowxNum`

Both print a field of `len` positions from the left, dividing by `LCD_Pow(10, e)` with `e` from
`len - 1` down. The power is a 32-bit product: exact up to `e = 9`, the remainder of `10 ^ e` up to
`e = 31`, and zero from `e = 32` on (`toNat_lcdPow`). A number below `2 ^ 32` has no digits from
`e = 10` on, so what the code shows there has to be a leading zero, and is one exactly for numbers
below the remainder (`numberShown_iff`).
-/

namespace Stm32Board.Lcd

open Common

/-! ## What a number field is -/

/-- Digit `e` of the decimal expansion. -/
def decDigit (num : UInt32) (e : ℕ) : ℕ := num.toNat / 10 ^ e % 10

/-- Position `t` of a field of `len` is a leading zero: it is not the last one, and it and those
before it are zero. -/
def LeadingZero (num : UInt32) (len t : ℕ) : Prop :=
  t + 1 < len ∧ ∀ s ≤ t, decDigit num (len - s - 1) = 0

instance (num : UInt32) (len t : ℕ) : Decidable (LeadingZero num len t) :=
  inferInstanceAs (Decidable (_ ∧ _))

/-- The character at position `t`, with `blank` for a leading zero. -/
def fieldChar (num : UInt32) (blank : UInt8) (len t : ℕ) : UInt8 :=
  if LeadingZero num len t then blank else UInt8.ofNat (48 + decDigit num (len - t - 1))

/-- The characters of a field, one in each of its columns. -/
def numField (x y : UInt16) (num : UInt32) (len size blank mode : UInt8) : List CharCall :=
  (List.range len.toNat).map fun t =>
    { x := UInt16.ofNat (x.toNat + size.toNat / 2 * t), y := y,
      num := fieldChar num blank len.toNat t, size := size, mode := mode }

/-- Both functions end without a division by zero and show the field. -/
def NumberShown (x y : UInt16) (num : UInt32) (len size : UInt8) : Prop :=
  lcdShowNum x y num len size = some (numField x y num len size 32 0) ∧
  (∀ mode, lcdShowxNum x y num len size mode =
    some (numField x y num len size (if mode &&& 0x80 ≠ 0 then 48 else 32) (mode &&& 0x01))) ∧
  lcdShowxNum x y num len size 0 = lcdShowNum x y num len size

/-! ## Powers of ten -/

/-- `LCD_Pow` computes modulo 2 to the 32. -/
theorem toNat_lcdPow (m n : UInt8) : (lcdPow m n).toNat = m.toNat ^ n.toNat % 4294967296 := by
  rw [lcdPow]
  generalize n.toNat = k
  induction k with
  | zero => rfl
  | succ k ih =>
    rw [Function.iterate_succ_apply', UInt32.toNat_mul, ih, UInt8.toNat_toUInt32]
    change m.toNat ^ k % 4294967296 * m.toNat % 4294967296 = _
    rw [Nat.mod_mul_mod, pow_succ]

/-- Up to `10 ^ 9` nothing is lost. -/
theorem pow_ten_mod_of_lt {e : ℕ} (h : e < 10) : 10 ^ e % 4294967296 = 10 ^ e := by
  interval_cases e <;> rfl

/-- From `10 ^ 32` on nothing is left. -/
theorem pow_ten_mod_of_le {e : ℕ} (h : 32 ≤ e) : 10 ^ e % 4294967296 = 0 := by
  obtain ⟨k, rfl⟩ := Nat.exists_eq_add_of_le h
  rw [pow_add, Nat.mul_mod]
  have hzero : 10 ^ 32 % 4294967296 = 0 := rfl
  rw [hzero, zero_mul, Nat.zero_mod]

/-- In between, what is left is large. -/
theorem pow_ten_mod_between {e : ℕ} (h : 10 ≤ e) (h' : e < 32) :
    268435456 ≤ 10 ^ e % 4294967296 := by
  interval_cases e <;> decide

/-- A 32-bit number has ten digits. -/
theorem decDigit_of_le {num : UInt32} {e : ℕ} (h : 10 ≤ e) : decDigit num e = 0 := by
  have hnum := num.toNat_lt
  have hpow : 10 ^ 10 ≤ 10 ^ e := Nat.pow_le_pow_right (by omega) h
  rw [decDigit, Nat.div_eq_of_lt (by omega)]

/-- A digit is below ten. -/
theorem decDigit_lt (num : UInt32) (e : ℕ) : decDigit num e < 10 := Nat.mod_lt _ (by omega)

/-! ## The positions -/

section Positions

variable {num : UInt32} {len : UInt8} {t : ℕ}

/-- The digit the code computes for a position. -/
theorem numTemp_eq (ht : t < len.toNat) : numTemp num len (UInt8.ofNat t) =
    if 10 ^ (len.toNat - t - 1) % 4294967296 = 0 then none
    else some (UInt8.ofNat
      (num.toNat / (10 ^ (len.toNat - t - 1) % 4294967296) % 10)) := by
  have hlen := len.toNat_lt
  have hexp : (len - UInt8.ofNat t - 1).toNat = len.toNat - t - 1 := by
    rw [UInt8.toNat_sub, UInt8.toNat_sub, UInt8.toNat_ofNat', UInt8.toNat_one]
    omega
  have hpow : (lcdPow 10 (len - UInt8.ofNat t - 1)).toNat =
      10 ^ (len.toNat - t - 1) % 4294967296 := by
    rw [toNat_lcdPow, hexp]
    rfl
  rw [numTemp, ← hpow]
  split
  · rename_i hzero
    rw [if_pos (by rw [hzero]; rfl)]
  · rename_i hne
    have hne' : (lcdPow 10 (len - UInt8.ofNat t - 1)).toNat ≠ 0 :=
      fun hzero => hne (UInt32.toNat_inj.mp hzero)
    rw [if_neg hne']
    refine congrArg some (UInt8.toNat_inj.mp ?_)
    rw [UInt32.toNat_toUInt8, UInt32.toNat_mod, UInt32.toNat_div, UInt8.toNat_ofNat']
    rfl

/-- Where the power is exact, or above the number, the digit is right. -/
theorem numTemp_eq_digit (ht : t < len.toNat)
    (h : 10 ≤ len.toNat - t - 1 → num.toNat < 10 ^ (len.toNat - t - 1) % 4294967296) :
    numTemp num len (UInt8.ofNat t) = some (UInt8.ofNat (decDigit num (len.toNat - t - 1))) := by
  rw [numTemp_eq ht]
  rcases Nat.lt_or_ge (len.toNat - t - 1) 10 with hsmall | hlarge
  · have hpos : 0 < 10 ^ (len.toNat - t - 1) := Nat.pow_pos (by omega)
    rw [pow_ten_mod_of_lt hsmall, if_neg (by omega), decDigit]
  · have hlt := h hlarge
    rw [if_neg (by omega), Nat.div_eq_of_lt hlt, decDigit_of_le hlarge]

/-- The character the code shows at a position, from the digits it has computed so far. -/
def shownChar (num : UInt32) (len blank : UInt8) (t : ℕ) : Option UInt8 :=
  (numTemp num len (UInt8.ofNat t)).map fun temp =>
    if (t + 1 < len.toNat ∧ ∀ s < t, numTemp num len (UInt8.ofNat s) = some 0) ∧ temp = 0 then blank
    else temp + 48

/-- A character other than a leading zero is shown before position `t`. -/
def ShownBefore (num : UInt32) (len : UInt8) (t : ℕ) : Prop :=
  ∃ s < t, s + 1 < len.toNat ∧ numTemp num len (UInt8.ofNat s) ≠ some 0

instance : Decidable (ShownBefore num len t) :=
  inferInstanceAs (Decidable (∃ s < t, s + 1 < len.toNat ∧ numTemp num len (UInt8.ofNat s) ≠ some 0))

/-- A digit has been shown before the next place if it had been before this one, or is shown here.
-/
theorem shownBefore_succ : ShownBefore num len (t + 1) ↔
    ShownBefore num len t ∨ t + 1 < len.toNat ∧ numTemp num len (UInt8.ofNat t) ≠ some 0 := by
  simp only [ShownBefore, Nat.lt_succ_iff_lt_or_eq, or_and_right, exists_or, exists_eq_left]

/-- The places fit a byte. -/
theorem toNat_position (ht : t ≤ len.toNat) : (UInt8.ofNat t).toNat = t := by
  have hlen := len.toNat_lt
  exact UInt8.toNat_ofNat_of_lt' (show _ < 256 by omega)

/-- The locals of the loop after `t` rounds: the flag tells whether a digit was shown. -/
theorem showNum_iterate (num : UInt32) (len : UInt8) (ht : t ≤ len.toNat) :
    (fun (s : UInt8 × Bool) => (s.1 + 1, if Suppressing len s.1 s.2 then
        decide (numTemp num len s.1 ≠ some 0) else s.2))^[t] (0, false) =
      (UInt8.ofNat t, decide (ShownBefore num len t)) := by
  induction t with
  | zero => simp [ShownBefore]
  | succ t ih =>
    rw [Function.iterate_succ_apply', ih (by omega), Prod.mk.injEq, UInt8.ofNat_add]
    refine ⟨rfl, ?_⟩
    by_cases hshown : ShownBefore num len t
    · -- the flag is up and stays up
      simp only [shownBefore_succ, hshown, true_or, decide_true, Suppressing]
      simp
    · have hsuppress : Suppressing len (UInt8.ofNat t) false ↔ t + 1 < len.toNat := by
        rw [Suppressing, toNat_position (by omega : t ≤ len.toNat)]
        exact ⟨fun h => by have := h.2; omega, fun h => ⟨rfl, by omega⟩⟩
      simp only [shownBefore_succ, hshown, false_or, decide_false, hsuppress]
      by_cases hlast : t + 1 < len.toNat
      · simp [hlast]
      · simp [hlast]

/-- The flag is down when every earlier digit is zero. -/
theorem suppressing_shownBefore_iff (ht : t < len.toNat) :
    Suppressing len (UInt8.ofNat t) (decide (ShownBefore num len t)) ↔
      t + 1 < len.toNat ∧ ∀ s < t, numTemp num len (UInt8.ofNat s) = some 0 := by
  rw [Suppressing, toNat_position ht.le, decide_eq_false_iff_not]
  constructor
  · rintro ⟨hnone, hlast⟩
    refine ⟨by omega, fun s hs => ?_⟩
    by_contra hne
    exact hnone ⟨s, hs, by omega, hne⟩
  · rintro ⟨hlast, hzero⟩
    refine ⟨?_, by omega⟩
    rintro ⟨s, hs, -, hne⟩
    exact hne (hzero s hs)

/-- A place is half a size further right. -/
theorem column_position (x : UInt16) (size : UInt8) (ht : t ≤ len.toNat) :
    x + (size / 2).toUInt16 * (UInt8.ofNat t).toUInt16 =
      UInt16.ofNat (x.toNat + size.toNat / 2 * t) := by
  have htwo : (2 : UInt8).toNat = 2 := rfl
  apply UInt16.toNat_inj.mp
  rw [UInt16.toNat_add, UInt16.toNat_mul, UInt8.toNat_toUInt16, UInt8.toNat_toUInt16,
    UInt8.toNat_div, toNat_position ht, htwo, UInt16.toNat_ofNat', Nat.add_mod_mod]

end Positions

/-! ## The field -/

/-- The call for the character `ch` at position `t`. -/
def numCall (x y : UInt16) (size mode t ch : UInt8) : CharCall :=
  { x := x + (size / 2).toUInt16 * t.toUInt16, y := y, num := ch, size := size, mode := mode }

/-- The call of one round of the loop, from its locals. -/
def roundCall (x y : UInt16) (num : UInt32) (len size blank mode : UInt8) (s : UInt8 × Bool) :
    Option CharCall :=
  (numTemp num len s.1).map fun temp =>
    numCall x y size mode s.1 (if Suppressing len s.1 s.2 ∧ temp = 0 then blank else temp + 48)

/-- One round of the loop calls `LCD_ShowChar` for the character of its place. -/
theorem roundCall_eq (x y : UInt16) {num : UInt32} {len : UInt8} (size blank mode : UInt8) {t : ℕ}
    (ht : t < len.toNat) :
    roundCall x y num len size blank mode (UInt8.ofNat t, decide (ShownBefore num len t)) =
      (shownChar num len blank t).map (numCall x y size mode (UInt8.ofNat t)) := by
  rw [shownChar, Option.map_map]
  refine congrArg (Option.map · (numTemp num len (UInt8.ofNat t))) (funext fun temp => ?_)
  rw [Function.comp_apply]
  simp only [suppressing_shownBefore_iff ht]

/-- Every round of the loop makes one call. -/
theorem showNumLoop_eq (x y : UInt16) (num : UInt32) (len size blank mode : UInt8) :
    showNumLoop x y num len size blank mode =
      forLoop (fun (s : UInt8 × Bool) => (s.1 + 1, if Suppressing len s.1 s.2 then
          decide (numTemp num len s.1 ≠ some 0) else s.2)) (fun s => decide (s.1 < len))
        (fun s => (roundCall x y num len size blank mode s).map fun call => [call])
        fuelU8 (0, false) := by
  rw [showNumLoop]
  refine congrArg (fun emit => forLoop _ _ emit fuelU8 ((0 : UInt8), false)) (funext fun s => ?_)
  rw [roundCall, Option.map_map]
  refine congrArg (Option.map · (numTemp num len s.1)) (funext fun temp => ?_)
  rw [Function.comp_apply]
  split
  · rfl
  · rfl

/-- The loop shows the field exactly when each position shows its character. -/
theorem showNumLoop_eq_numField_iff (x y : UInt16) (num : UInt32) (len size blank mode : UInt8) :
    showNumLoop x y num len size blank mode = some (numField x y num len size blank mode) ↔
      ∀ t < len.toNat, shownChar num len blank t = some (fieldChar num blank len.toNat t) := by
  have hlen := len.toNat_lt
  rw [showNumLoop_eq, numField, forLoop_eq_some_map_iff]
  · constructor
    · intro h t ht
      have hround := h t ht
      rw [showNum_iterate num len ht.le, roundCall_eq x y size blank mode ht] at hround
      obtain ⟨ch, hch, hcall⟩ := Option.map_eq_some_iff.mp hround
      rw [hch]
      exact congrArg some (congrArg CharCall.num hcall)
    · intro h t ht
      rw [showNum_iterate num len ht.le, roundCall_eq x y size blank mode ht, h t ht,
        ← column_position x size ht.le]
      rfl
  · intro t ht
    rw [showNum_iterate num len ht.le, decide_eq_true_eq, UInt8.lt_iff_toNat_lt,
      toNat_position ht.le]
    exact ht
  · rw [showNum_iterate num len le_rfl, decide_eq_false_iff_not, UInt8.lt_iff_toNat_lt,
      toNat_position le_rfl]
    exact lt_irrefl _
  · rw [fuelU8]
    omega

section Field

variable {num : UInt32} {len : UInt8}

/-- Numbers below every power the field divides by, as far as these wrap, are shown. -/
theorem shownChar_eq (blank : UInt8)
    (h : ∀ e, 10 ≤ e → e < len.toNat → num.toNat < 10 ^ e % 4294967296) {t : ℕ}
    (ht : t < len.toNat) : shownChar num len blank t = some (fieldChar num blank len.toNat t) := by
  have hdigit : ∀ s < len.toNat, numTemp num len (UInt8.ofNat s) =
      some (UInt8.ofNat (decDigit num (len.toNat - s - 1))) :=
    fun s hs => numTemp_eq_digit hs fun hlarge => h _ hlarge (by omega)
  have hzero : ∀ e, UInt8.ofNat (decDigit num e) = 0 ↔ decDigit num e = 0 := by
    intro e
    have hlt := decDigit_lt num e
    rw [← UInt8.toNat_inj, UInt8.toNat_ofNat', Nat.mod_eq_of_lt (by omega)]
    rfl
  have hleading : ((t + 1 < len.toNat ∧
      ∀ s < t, numTemp num len (UInt8.ofNat s) = some 0) ∧
      UInt8.ofNat (decDigit num (len.toNat - t - 1)) = 0) ↔ LeadingZero num len.toNat t := by
    rw [LeadingZero, hzero]
    constructor
    · rintro ⟨⟨hlast, hbefore⟩, hhere⟩
      refine ⟨hlast, fun s hs => ?_⟩
      rcases hs.eq_or_lt with rfl | hlt
      · exact hhere
      · exact (hzero _).mp (Option.some.inj ((hdigit s (by omega)).symm.trans (hbefore s hlt)))
    · rintro ⟨hlast, hall⟩
      refine ⟨⟨hlast, fun s hs => ?_⟩, hall t le_rfl⟩
      rw [hdigit s (by omega), hall s hs.le]
      rfl
  rw [shownChar, hdigit t ht, Option.map_some, fieldChar]
  refine congrArg some ?_
  -- 48 is `'0'`
  by_cases hlead : LeadingZero num len.toNat t
  · rw [if_pos (hleading.mpr hlead), if_pos hlead]
  · rw [if_neg (mt hleading.mp hlead), if_neg hlead, UInt8.ofNat_add, UInt8.add_comm]
    rfl

/-- Where a blank is due and shown, the code has computed the digit zero. -/
theorem numTemp_eq_zero_of_shown {e : ℕ} (he : 10 ≤ e) (helen : e < len.toNat)
    (h : ∀ t < len.toNat, shownChar num len 32 t = some (fieldChar num 32 len.toNat t)) :
    numTemp num len (UInt8.ofNat (len.toNat - e - 1)) = some 0 := by
  have hshown := h (len.toNat - e - 1) (by omega)
  have hlead : LeadingZero num len.toNat (len.toNat - e - 1) :=
    ⟨by omega, fun s hs => decDigit_of_le (by omega)⟩
  rw [fieldChar, if_pos hlead, shownChar] at hshown
  obtain ⟨temp, htemp, hchar⟩ := Option.map_eq_some_iff.mp hshown
  split at hchar
  · rename_i hzero
    rw [htemp, hzero.2]
  · -- a digit is no blank
    have hlt : temp.toNat < 10 := by
      rw [numTemp_eq (by omega)] at htemp
      split at htemp
      · exact absurd htemp (by simp)
      · obtain rfl := Option.some.inj htemp
        rw [UInt8.toNat_ofNat']
        omega
    have htoNat := congrArg UInt8.toNat hchar
    have h48 : (48 : UInt8).toNat = 48 := rfl
    have h32 : (32 : UInt8).toNat = 32 := rfl
    rw [UInt8.toNat_add, h48, h32] at htoNat
    omega

end Field

/-- Both functions show the field exactly when the number is below every power from `10 ^ 10` on the
field divides by, as the 32-bit product leaves it. -/
theorem numberShown_iff (x y : UInt16) (num : UInt32) (len size : UInt8) :
    NumberShown x y num len size ↔
      ∀ e, 10 ≤ e → e < len.toNat → num.toNat < 10 ^ e % 4294967296 := by
  constructor
  · rintro ⟨hshown, -⟩ e he helen
    have hpos := (showNumLoop_eq_numField_iff x y num len size 32 0).mp hshown
    -- the quotient is a multiple of ten, and too small for one that is not zero
    have hquot : ∀ e, 10 ≤ e → e < len.toNat → 10 ^ e % 4294967296 ≠ 0 ∧
        num.toNat / (10 ^ e % 4294967296) % 10 = 0 := by
      intro e he helen
      have htemp := numTemp_eq_zero_of_shown he helen hpos
      have hexp : len.toNat - (len.toNat - e - 1) - 1 = e := by omega
      rw [numTemp_eq (by omega), hexp] at htemp
      split at htemp
      · exact absurd htemp (by simp)
      · have htoNat := congrArg UInt8.toNat (Option.some.inj htemp)
        rw [UInt8.toNat_ofNat', UInt8.toNat_zero] at htoNat
        exact ⟨‹_›, by omega⟩
    have hnum := num.toNat_lt
    have hten : num.toNat < 1410065408 := by
      have hten' : 10 ^ 10 % 4294967296 = 1410065408 := rfl
      have hquot' := (hquot 10 le_rfl (by omega)).2
      rw [hten'] at hquot'
      omega
    obtain ⟨hne, hmod⟩ := hquot e he helen
    have hbelow : e < 32 := by
      by_contra hlarge
      exact hne (pow_ten_mod_of_le (by omega))
    have hlarge := pow_ten_mod_between he hbelow
    have hdiv : num.toNat / (10 ^ e % 4294967296) < 10 :=
      (Nat.div_lt_iff_lt_mul (by omega)).mpr (by omega)
    rw [Nat.mod_eq_of_lt hdiv] at hmod
    exact (Nat.div_eq_zero_iff_lt (by omega)).mp hmod
  · intro h
    have hfield : ∀ blank mode, showNumLoop x y num len size blank mode =
        some (numField x y num len size blank mode) := fun blank mode =>
      (showNumLoop_eq_numField_iff x y num len size blank mode).mpr
        fun t ht => shownChar_eq blank h ht
    exact ⟨hfield 32 0, fun mode => hfield _ _, rfl⟩

/-- `LCD_ShowNum(0, 0, 4000000000, 11, 16)` shows a `2` before the number. -/
theorem not_numberShown_eleven : ¬ NumberShown 0 0 4000000000 11 16 := by
  rintro ⟨hshown, -⟩
  have hpos := (showNumLoop_eq_numField_iff 0 0 4000000000 11 16 32 0).mp hshown
  exact absurd (hpos 0 (by decide)) (by decide)

end Stm32Board.Lcd
