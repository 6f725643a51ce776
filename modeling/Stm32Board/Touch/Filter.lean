import Stm32Board.Common.ExchangeSort
import Stm32Board.Touch.Defs

/-!
# The filter of the touch readings

Reference: `TP_Read_AD`, `TP_Read_XOY`, `TP_Read_XY` and `TP_Read_XY2` of
`applications/TOUCH/touch.c`.

A coordinate is read five times; the readings are sorted, the lowest and the highest are dropped and
the others averaged. A point is read twice and accepted when both coordinates agree within
`ERR_RANGE`. One outlier a batch does no harm: the three in the middle stay inside any interval that
holds the other four.
-/

namespace Stm32Board.Touch

open Common

def readTimes : ℕ := 5
def lostVal : ℕ := 1
def errRange : ℕ := 50

/-! ## The functions -/

/-- `TP_Read_AD` after the command is sent, for the levels of `DOUT` at its 16 clocks. -/
def tpReadAd (dout : ℕ → Bool) : UInt16 :=
  let num := (List.range 16).foldl (fun (num : UInt16) count =>
    let num := num <<< 1
    if dout count then num + 1 else num) 0
  num >>> 4

/-- The values of one batch, from conversion `n` on. `adc n xy` is what `TP_Read_AD(xy)` returns as
the `n`-th conversion. -/
def readBatch (adc : ℕ → UInt8 → UInt16) (n : ℕ) (xy : UInt8) : ℕ → UInt16 := fun i => adc (n + i) xy

/-- A `u16` in a comparison. -/
def promote (v : UInt16) : ℤ := v.toNat

/-- The sum over the sorted batch, without the `LOST_VAL` values at either end. -/
def middleSum (buf : ℕ → UInt16) : UInt16 :=
  (List.range' lostVal (readTimes - 2 * lostVal)).foldl (fun sum i => sum + buf i) 0

/-- `TP_Read_XOY`. -/
def tpReadXoy (adc : ℕ → UInt8 → UInt16) (n : ℕ) (xy : UInt8) : UInt16 :=
  middleSum (exchangeSort promote readTimes (readBatch adc n xy)) /
    UInt16.ofNat (readTimes - 2 * lostVal)

/-- `TP_Read_XY`, with `CMD_RDX` and `CMD_RDY`: the value returned and the coordinates. -/
def tpReadXy (adc : ℕ → UInt8 → UInt16) (n : ℕ) (cmds : UInt8 × UInt8) : UInt8 × Point :=
  (1, (tpReadXoy adc n cmds.1, tpReadXoy adc (n + readTimes) cmds.2))

/-- Two readings of a coordinate agree. -/
def Agree (v1 v2 : UInt16) : Prop :=
  (v2 ≤ v1 ∧ v1.toNat < v2.toNat + errRange) ∨ (v1 ≤ v2 ∧ v2.toNat < v1.toNat + errRange)

instance (v1 v2 : UInt16) : Decidable (Agree v1 v2) := inferInstanceAs (Decidable (_ ∨ _))

/-- `(x1+x2)/2`, in `int` arithmetic. -/
def average (v1 v2 : UInt16) : UInt16 := UInt16.ofNat ((v1.toNat + v2.toNat) / 2)

/-- `TP_Read_XY2`, with the caller's coordinates. -/
def tpReadXy2 (adc : ℕ → UInt8 → UInt16) (n : ℕ) (cmds : UInt8 × UInt8) (p : Point) :
    UInt8 × Point :=
  match tpReadXy adc n cmds with
  | (flag, (x1, y1)) =>
    if flag = 0 then (0, p)
    else
      match tpReadXy adc (n + 2 * readTimes) cmds with
      | (flag, (x2, y2)) =>
        if flag = 0 then (0, p)
        else if Agree x1 x2 ∧ Agree y1 y2 then (1, (average x1 x2, average y1 y2))
        else (0, p)

/-! ## Batches -/

/-- At least four of the five readings of a batch lie in an interval. -/
def MostlyIn (lo hi : ℤ) (buf : ℕ → UInt16) : Prop :=
  4 ≤ ((Finset.range readTimes).filter fun k => lo ≤ promote (buf k) ∧ promote (buf k) ≤ hi).card

/-- The converter has 12 bits. -/
theorem tpReadAd_le (dout : ℕ → Bool) : (tpReadAd dout).toNat ≤ 4095 := by
  have hshift : ∀ num : UInt16, (num >>> 4).toNat ≤ 4095 := by
    intro num
    have hnum := num.toNat_lt
    have hdiv : (num >>> 4).toNat = num.toNat / 16 := by
      rw [UInt16.toNat_shiftRight]
      exact Nat.shiftRight_eq_div_pow _ 4
    omega
  exact hshift _

/-- Of five values three are added. -/
theorem middleSum_eq (buf : ℕ → UInt16) : middleSum buf = buf 1 + buf 2 + buf 3 := by
  have hrange : List.range' lostVal (readTimes - 2 * lostVal) = [1, 2, 3] := rfl
  rw [middleSum, hrange, List.foldl_cons, List.foldl_cons, List.foldl_cons, List.foldl_nil,
    UInt16.zero_add]

section Batch

variable {adc : ℕ → UInt8 → UInt16} {n : ℕ} {xy : UInt8}

/-- The sorted batch holds readings of the batch. -/
theorem sorted_le (hrange : ∀ k < readTimes, (adc (n + k) xy).toNat ≤ 4095) {i : ℕ}
    (hi : i < readTimes) :
    (exchangeSort promote readTimes (readBatch adc n xy) i).toNat ≤ 4095 := by
  have hsorted := exchangeSort_rearranged promote readTimes (readBatch adc n xy)
  exact hsorted.forall_lt (P := fun v => v.toNat ≤ 4095) hrange i hi

/-- The sum of three readings fits in 16 bits. -/
theorem toNat_middleSum (hrange : ∀ k < readTimes, (adc (n + k) xy).toNat ≤ 4095) :
    (middleSum (exchangeSort promote readTimes (readBatch adc n xy))).toNat =
      (exchangeSort promote readTimes (readBatch adc n xy) 1).toNat +
        (exchangeSort promote readTimes (readBatch adc n xy) 2).toNat +
        (exchangeSort promote readTimes (readBatch adc n xy) 3).toNat := by
  have h₁ := sorted_le hrange (by decide : 1 < readTimes)
  have h₂ := sorted_le hrange (by decide : 2 < readTimes)
  have h₃ := sorted_le hrange (by decide : 3 < readTimes)
  rw [middleSum_eq, UInt16.toNat_add, UInt16.toNat_add]
  omega

/-- One outlier among the readings does not move the coordinate out of the interval of the others. -/
theorem tpReadXoy_mem {lo hi : ℤ} (hrange : ∀ k < readTimes, (adc (n + k) xy).toNat ≤ 4095)
    (h : MostlyIn lo hi (readBatch adc n xy)) :
    lo ≤ promote (tpReadXoy adc n xy) ∧ promote (tpReadXoy adc n xy) ≤ hi := by
  -- with one value lost at either end, the three in the middle are inside
  have hcount : readTimes ≤ ((Finset.range readTimes).filter fun k =>
      lo ≤ promote (readBatch adc n xy k) ∧ promote (readBatch adc n xy k) ≤ hi).card + lostVal :=
    Nat.succ_le_succ h
  have hmiddle : ∀ i, 1 ≤ i → i ≤ 3 →
      lo ≤ promote (exchangeSort promote readTimes (readBatch adc n xy) i) ∧
        promote (exchangeSort promote readTimes (readBatch adc n xy) i) ≤ hi := by
    intro i hi₁ hi₃
    exact exchangeSort_middle promote hcount hi₁ (Nat.lt_of_le_of_lt (Nat.succ_le_succ hi₃)
      (by decide : 3 + 1 < readTimes))
  have h₁ := hmiddle 1 (by omega) (by omega)
  have h₂ := hmiddle 2 (by omega) (by omega)
  have h₃ := hmiddle 3 (by omega) (by omega)
  have hsum := toNat_middleSum hrange
  have hthree : (UInt16.ofNat (readTimes - 2 * lostVal)).toNat = 3 := rfl
  have hmean : (tpReadXoy adc n xy).toNat =
      (middleSum (exchangeSort promote readTimes (readBatch adc n xy))).toNat / 3 := by
    rw [tpReadXoy, UInt16.toNat_div, hthree]
  simp only [promote] at h₁ h₂ h₃ ⊢
  omega

end Batch

/-- Two readings in one interval of less than `ERR_RANGE` agree, and so does their average. -/
theorem agree_of_mem {lo hi : ℤ} (hsmall : hi - lo < errRange) {v1 v2 : UInt16}
    (h1 : lo ≤ promote v1 ∧ promote v1 ≤ hi) (h2 : lo ≤ promote v2 ∧ promote v2 ≤ hi) :
    Agree v1 v2 ∧ lo ≤ promote (average v1 v2) ∧ promote (average v1 v2) ≤ hi := by
  have hv1 := v1.toNat_lt
  have hv2 := v2.toNat_lt
  have haverage : (average v1 v2).toNat = (v1.toNat + v2.toNat) / 2 := by
    rw [average, UInt16.toNat_ofNat']
    omega
  simp only [promote, errRange] at h1 h2 hsmall ⊢
  rw [Agree, UInt16.le_iff_toNat_le, UInt16.le_iff_toNat_le, haverage, errRange]
  omega

/-! ## A point -/

/-- What `TP_Read_XY2` returns and leaves at the caller's coordinates. -/
theorem tpReadXy2_cases (adc : ℕ → UInt8 → UInt16) (n : ℕ) (cmds : UInt8 × UInt8) (p : Point) :
    tpReadXy2 adc n cmds p =
      if Agree (tpReadXoy adc n cmds.1) (tpReadXoy adc (n + 10) cmds.1) ∧
          Agree (tpReadXoy adc (n + 5) cmds.2) (tpReadXoy adc (n + 15) cmds.2) then
        (1, (average (tpReadXoy adc n cmds.1) (tpReadXoy adc (n + 10) cmds.1),
          average (tpReadXoy adc (n + 5) cmds.2) (tpReadXoy adc (n + 15) cmds.2)))
      else (0, p) := rfl

/-- The four batches of one `TP_Read_XY2`, for an interval on each axis. -/
structure BatchesIn (adc : ℕ → UInt8 → UInt16) (n : ℕ) (cmds : UInt8 × UInt8)
    (lo hi lo' hi' : ℤ) : Prop where
  x1 : MostlyIn lo hi (readBatch adc n cmds.1)
  y1 : MostlyIn lo' hi' (readBatch adc (n + 5) cmds.2)
  x2 : MostlyIn lo hi (readBatch adc (n + 10) cmds.1)
  y2 : MostlyIn lo' hi' (readBatch adc (n + 15) cmds.2)

/-- What is promised of `TP_Read_XY2`, for the twenty conversions from `n` on. -/
structure FilterContract (adc : ℕ → UInt8 → UInt16) (n : ℕ) (cmds : UInt8 × UInt8) (p : Point) :
    Prop where
  accepts : ∀ lo hi lo' hi' : ℤ, hi - lo < errRange → hi' - lo' < errRange →
    BatchesIn adc n cmds lo hi lo' hi' → ∃ q : Point, tpReadXy2 adc n cmds p = (1, q) ∧
      (lo ≤ promote q.1 ∧ promote q.1 ≤ hi) ∧ (lo' ≤ promote q.2 ∧ promote q.2 ≤ hi')
  returns : (tpReadXy2 adc n cmds p).1 = 0 ∨ (tpReadXy2 adc n cmds p).1 = 1
  unchanged : (tpReadXy2 adc n cmds p).1 = 0 → (tpReadXy2 adc n cmds p).2 = p
  noOverflow : ∀ r ∈ [(n, cmds.1), (n + 5, cmds.2), (n + 10, cmds.1), (n + 15, cmds.2)],
    (middleSum (exchangeSort promote readTimes (readBatch adc r.1 r.2))).toNat =
      (exchangeSort promote readTimes (readBatch adc r.1 r.2) 1).toNat +
        (exchangeSort promote readTimes (readBatch adc r.1 r.2) 2).toNat +
        (exchangeSort promote readTimes (readBatch adc r.1 r.2) 3).toNat

/-- The conversions of one call are readings of twelve bits. -/
def TwelveBits (adc : ℕ → UInt8 → UInt16) (n : ℕ) : Prop :=
  ∀ k < 20, ∀ xy, (adc (n + k) xy).toNat ≤ 4095

section Contract

variable {adc : ℕ → UInt8 → UInt16} {n : ℕ} (hrange : TwelveBits adc n)

include hrange

/-- The conversions of one batch. -/
theorem TwelveBits.batch (i : ℕ) (xy : UInt8) (hi : i + readTimes ≤ 20) :
    ∀ k < readTimes, (adc (n + i + k) xy).toNat ≤ 4095 := by
  intro k hk
  rw [Nat.add_assoc]
  exact hrange (i + k) (by omega) xy

/-- With at most one outlier a batch, the point is accepted. -/
theorem tpReadXy2_accepts {cmds : UInt8 × UInt8} (p : Point) {lo hi lo' hi' : ℤ}
    (hsmall : hi - lo < errRange) (hsmall' : hi' - lo' < errRange)
    (hin : BatchesIn adc n cmds lo hi lo' hi') :
    ∃ q : Point, tpReadXy2 adc n cmds p = (1, q) ∧
      (lo ≤ promote q.1 ∧ promote q.1 ≤ hi) ∧ (lo' ≤ promote q.2 ∧ promote q.2 ≤ hi') := by
  have hfirst : ∀ k < readTimes, (adc (n + k) cmds.1).toNat ≤ 4095 :=
    hrange.batch 0 cmds.1 (by decide)
  obtain ⟨hagree, hx⟩ := agree_of_mem hsmall (tpReadXoy_mem hfirst hin.x1)
    (tpReadXoy_mem (hrange.batch 10 cmds.1 (by decide)) hin.x2)
  obtain ⟨hagree', hy⟩ := agree_of_mem hsmall'
    (tpReadXoy_mem (hrange.batch 5 cmds.2 (by decide)) hin.y1)
    (tpReadXoy_mem (hrange.batch 15 cmds.2 (by decide)) hin.y2)
  exact ⟨(average _ _, average _ _), by rw [tpReadXy2_cases, if_pos ⟨hagree, hagree'⟩], hx, hy⟩

/-- For readings of twelve bits `TP_Read_XY2` keeps its contract. -/
theorem tpReadXy2_contract (cmds : UInt8 × UInt8) (p : Point) : FilterContract adc n cmds p := by
  constructor
  · intro lo hi lo' hi' hsmall hsmall' hin
    exact tpReadXy2_accepts hrange p hsmall hsmall' hin
  · rw [tpReadXy2_cases]
    split
    · exact Or.inr rfl
    · exact Or.inl rfl
  · rw [tpReadXy2_cases]
    split
    · intro hzero
      exact absurd hzero (by simp)
    · intro _
      rfl
  · intro r hr
    simp only [List.mem_cons, List.not_mem_nil, or_false] at hr
    rcases hr with rfl | rfl | rfl | rfl
    · exact toNat_middleSum (hrange.batch 0 cmds.1 (by decide))
    · exact toNat_middleSum (hrange.batch 5 cmds.2 (by decide))
    · exact toNat_middleSum (hrange.batch 10 cmds.1 (by decide))
    · exact toNat_middleSum (hrange.batch 15 cmds.2 (by decide))

end Contract

/-! ## The converter -/

/-- What `TP_Read_AD` returns as the `n`-th conversion, for the levels of `DOUT` during it. -/
def conversions (dout : ℕ → UInt8 → ℕ → Bool) (n : ℕ) (cmd : UInt8) : UInt16 :=
  tpReadAd (dout n cmd)

/-- Whatever the levels are, the readings have twelve bits. -/
theorem twelveBits_conversions (dout : ℕ → UInt8 → ℕ → Bool) (n : ℕ) :
    TwelveBits (conversions dout) n :=
  fun k _ xy => tpReadAd_le (dout (n + k) xy)

/-- The levels of a pen at `(2000, 1000)`, with a reading of 4095 in the middle of every batch. -/
def outlierDout (n : ℕ) (xy : UInt8) (count : ℕ) : Bool :=
  let v := if n % 5 = 2 then 4095 else if xy = 0xD0 then 2000 else 1000
  -- the highest of the twelve bits comes first
  v.testBit (11 - count)

/-- All but the outliers lie together. -/
theorem batchesIn_outliers :
    BatchesIn (conversions outlierDout) 0 (0xD0, 0x90) 2000 2010 1000 1010 := by
  constructor
  all_goals
    unfold MostlyIn
    decide

/-- The outliers are filtered out. -/
theorem tpReadXy2_contract_outliers :
    BatchesIn (conversions outlierDout) 0 (0xD0, 0x90) 2000 2010 1000 1010 ∧
      FilterContract (conversions outlierDout) 0 (0xD0, 0x90) (7, 7) :=
  ⟨batchesIn_outliers, tpReadXy2_contract (twelveBits_conversions outlierDout 0) (0xD0, 0x90) (7, 7)⟩

/-! ## As a scan sees it -/

/-- The outcome of `TP_Read_XY2` for a scan: the accepted pair, or none. -/
def readingOf (r : UInt8 × Point) : Option Point := if r.1 = 0 then none else some r.2

/-- The reading of a `TP_Read_XY2` during which the pen lies still: in each batch all readings but one
at most are inside an interval of the axis. -/
def StillReading (reading : Option Point) : Prop :=
  ∃ (dout : ℕ → UInt8 → ℕ → Bool) (n : ℕ) (cmds : UInt8 × UInt8) (p : Point) (lo hi lo' hi' : ℤ),
    hi - lo < errRange ∧ hi' - lo' < errRange ∧
      BatchesIn (conversions dout) n cmds lo hi lo' hi' ∧
      reading = readingOf (tpReadXy2 (conversions dout) n cmds p)

/-- A pen that lies still is read. -/
theorem StillReading.isSome {reading : Option Point} (h : StillReading reading) :
    reading.isSome := by
  obtain ⟨dout, n, cmds, p, lo, hi, lo', hi', hsmall, hsmall', hin, rfl⟩ := h
  obtain ⟨q, hread, -⟩ := tpReadXy2_accepts (twelveBits_conversions dout n) p hsmall hsmall' hin
  rw [hread, readingOf, if_neg (by simp)]
  rfl

end Stm32Board.Touch
