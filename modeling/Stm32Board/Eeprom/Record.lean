import Stm32Board.Eeprom.Bytes
import Stm32Board.Touch.Adjust
import Mathlib.Data.List.TakeDrop

/-!
# Losing power while the calibration record is written

`TP_Save_Adjdata` overwrites the record in place, byte by byte, and writes the marker last. Over an
EEPROM without a record the marker makes the save atomic; over a valid record it does not, since the
old marker stays valid all along (`crashConsistent_iff`). The last section reads the bytes as the
values of the calibration model.
-/

namespace Stm32Board.Eeprom

open Common Touch

/-! ## The log of a save -/

/-- The EEPROM holds a complete record. -/
def HoldsRecord (e : Contents) : Prop := e (saveAddrBase + 14) = 0x0A

instance (e : Contents) : Decidable (HoldsRecord e) := inferInstanceAs (Decidable (_ = _))

/-- A save writes fifteen successive addresses. -/
theorem tpSaveAdjdata_fst (new : AdjImage) :
    (tpSaveAdjdata new).map Prod.fst = consecutive saveAddrBase 15 := by
  rw [tpSaveAdjdata, List.map_append, at24cxxWrite_fst, new.length_eq]
  rfl

theorem tpSaveAdjdata_snd (new : AdjImage) :
    (tpSaveAdjdata new).map Prod.snd = new.bytes ++ [0x0A] := by
  rw [tpSaveAdjdata, List.map_append, at24cxxWrite_snd]
  rfl

/-- What these addresses hold is an image and a marker. -/
theorem record_eq (e : Contents) :
    (consecutive saveAddrBase 15).map e = (imageAt e).bytes ++ [e (saveAddrBase + 14)] := rfl

/-- The bytes of the record after a save that was cut short. -/
theorem record_cut (e : Contents) (new : AdjImage) (k : ℕ) :
    (imageAt (applyWrites e ((tpSaveAdjdata new).take k))).bytes ++
        [applyWrites e ((tpSaveAdjdata new).take k) (saveAddrBase + 14)] =
      (new.bytes ++ [0x0A]).take k ++ ((imageAt e).bytes ++ [e (saveAddrBase + 14)]).drop k := by
  have hnodup : ((tpSaveAdjdata new).map Prod.fst).Nodup := by
    rw [tpSaveAdjdata_fst]
    decide
  have hcut := map_applyWrites_take e hnodup k
  rwa [tpSaveAdjdata_fst, tpSaveAdjdata_snd, record_eq, record_eq] at hcut

/-- Cut before the marker, the save has replaced a prefix of the old bytes and left the marker. -/
theorem record_cut_early (e : Contents) (new : AdjImage) {k : ℕ} (hk : k ≤ 14) :
    (imageAt (applyWrites e ((tpSaveAdjdata new).take k))).bytes =
        new.bytes.take k ++ (imageAt e).bytes.drop k ∧
      applyWrites e ((tpSaveAdjdata new).take k) (saveAddrBase + 14) = e (saveAddrBase + 14) := by
  have hcut := record_cut e new k
  rw [List.take_append_of_le_length (by rw [new.length_eq]; exact hk),
    List.drop_append_of_le_length (by rw [(imageAt e).length_eq]; exact hk),
    ← List.append_assoc] at hcut
  obtain ⟨hbytes, hmark⟩ := List.append_inj' hcut rfl
  exact ⟨hbytes, List.singleton_inj.mp hmark⟩

/-- A complete save leaves the new record. -/
theorem record_cut_late (e : Contents) (new : AdjImage) {k : ℕ} (hk : 14 < k) :
    imageAt (applyWrites e ((tpSaveAdjdata new).take k)) = new ∧
      HoldsRecord (applyWrites e ((tpSaveAdjdata new).take k)) := by
  have hfront : (new.bytes ++ [0x0A]).take k = new.bytes ++ [0x0A] := by
    refine List.take_of_length_le ?_
    rw [List.length_append, new.length_eq]
    exact hk
  have hrest : ((imageAt e).bytes ++ [e (saveAddrBase + 14)]).drop k = [] := by
    refine List.drop_of_length_le ?_
    rw [List.length_append, (imageAt e).length_eq]
    exact hk
  have hcut := record_cut e new k
  rw [hfront, hrest, List.append_nil] at hcut
  obtain ⟨hbytes, hmark⟩ := List.append_inj' hcut rfl
  refine ⟨?_, List.singleton_inj.mp hmark⟩
  exact AdjImage.ext hbytes

/-! ## Crash consistency -/

/-- Whatever number of stores of a save of `new` reaches the EEPROM, what is read back afterwards is
no record, the old record, or the new one. -/
def CrashConsistent (e : Contents) (new : AdjImage) : Prop :=
  ∀ k m, let r := tpGetAdjdata (applyWrites e ((tpSaveAdjdata new).take k)) m
    r.2 = 0 ∨ r.2 = 1 ∧ ((HoldsRecord e ∧ r.1.image = imageAt e) ∨ r.1.image = new)

/-- Two byte strings differ in at most one place. -/
def DifferAtMostOnce (xs ys : List UInt8) : Prop :=
  ∀ i j : ℕ, i < j → xs[i]? = ys[i]? ∨ xs[j]? = ys[j]?

/-- Two lists differ at most once exactly when at every cut the fronts or the rests agree. -/
theorem differAtMostOnce_iff {xs ys : List UInt8} :
    DifferAtMostOnce xs ys ↔ ∀ k, xs.take k = ys.take k ∨ xs.drop k = ys.drop k := by
  constructor
  · intro h k
    by_cases hfront : ∀ i < k, xs[i]? = ys[i]?
    · refine .inl (List.ext_getElem? fun i => ?_)
      rw [List.getElem?_take, List.getElem?_take]
      split_ifs with hi
      · exact hfront i hi
      · rfl
    · push Not at hfront
      obtain ⟨i, hi, hne⟩ := hfront
      refine .inr (List.ext_getElem? fun j => ?_)
      rw [List.getElem?_drop, List.getElem?_drop]
      exact (h i (k + j) (by omega)).resolve_left hne
  · intro h i j hij
    rcases h j with hfront | hrest
    · have hi := congrArg (·[i]?) hfront
      simp only [List.getElem?_take, if_pos hij] at hi
      exact .inl hi
    · have hj := congrArg (·[0]?) hrest
      simp only [List.getElem?_drop, Nat.add_zero] at hj
      exact .inr hj

/-- A record is read back as its bytes. -/
theorem tpGetAdjdata_of_holdsRecord {e : Contents} (h : HoldsRecord e) (m : AdjMemory) :
    (tpGetAdjdata e m).2 = 1 ∧ (tpGetAdjdata e m).1.image = imageAt e := by
  have hmark : at24cxxReadOneByte e (saveAddrBase + 14) = 0x0A := h
  rw [tpGetAdjdata]
  dsimp only
  rw [if_pos hmark]
  split_ifs <;> exact ⟨rfl, rfl⟩

theorem tpGetAdjdata_of_not_holdsRecord {e : Contents} (h : ¬HoldsRecord e) (m : AdjMemory) :
    tpGetAdjdata e m = (m, 0) := if_neg h

/-- A save survives a loss of power at every point exactly when there was no record before, or the
old and new record differ in at most one byte. -/
theorem crashConsistent_iff (e : Contents) (new : AdjImage) :
    CrashConsistent e new ↔
      ¬HoldsRecord e ∨ DifferAtMostOnce new.bytes (imageAt e).bytes := by
  rw [differAtMostOnce_iff, ← imp_iff_not_or]
  constructor
  · intro h hold k
    rcases Nat.lt_or_ge 14 k with hk | hk
    · refine .inr ?_
      rw [List.drop_of_length_le (by rw [new.length_eq]; exact hk.le),
        List.drop_of_length_le (by rw [(imageAt e).length_eq]; exact hk.le)]
    · obtain ⟨hbytes, hmark⟩ := record_cut_early e new hk
      obtain ⟨hret, hread⟩ := tpGetAdjdata_of_holdsRecord (hmark.trans hold) ⟨new, 0, 0⟩
      rcases h k ⟨new, 0, 0⟩ with hzero | ⟨-, ⟨-, himage⟩ | himage⟩
      · exact absurd (hret.symm.trans hzero) (by decide)
      · -- the old record was read: the bytes written so far are the old ones
        rw [← hread, himage] at hbytes
        exact .inl (List.append_cancel_right ((List.take_append_drop k _).trans hbytes)).symm
      · -- the new record was read: the bytes not yet written are the new ones
        rw [← hread, himage] at hbytes
        exact .inr (List.append_cancel_left ((List.take_append_drop k _).trans hbytes))
  · intro h k m
    dsimp only
    -- the marker is the fifteenth store: a save cut before it leaves the old one
    rcases Nat.lt_or_ge 14 k with hk | hk
    · obtain ⟨himage, hmark⟩ := record_cut_late e new hk
      obtain ⟨hret, hread⟩ := tpGetAdjdata_of_holdsRecord hmark m
      exact .inr ⟨hret, .inr (hread.trans himage)⟩
    · obtain ⟨hbytes, hmark⟩ := record_cut_early e new hk
      by_cases hold : HoldsRecord e
      · obtain ⟨hret, hread⟩ := tpGetAdjdata_of_holdsRecord (hmark.trans hold) m
        refine .inr ⟨hret, ?_⟩
        rw [hread]
        rcases h hold k with hfront | hrest
        · refine .inl ⟨hold, AdjImage.ext ?_⟩
          rw [hbytes, hfront, List.take_append_drop]
        · refine .inr (AdjImage.ext ?_)
          rw [hbytes, ← hrest, List.take_append_drop]
      · refine .inl ?_
        rw [tpGetAdjdata_of_not_holdsRecord (fun h => hold (hmark.symm.trans h))]

/-- Over a valid record of zeros, one store of a new record of ones leaves a mixture that is read
back as valid. -/
theorem not_crashConsistent_valid_marker :
    ¬CrashConsistent (Function.update (fun _ => 0) (saveAddrBase + 14) 0x0A)
      ⟨List.replicate 14 0xFF, rfl⟩ := by
  intro h
  have h₁ := h 1 ⟨⟨List.replicate 14 0, rfl⟩, 0xD0, 0x90⟩
  exact absurd h₁ (by decide)

/-! ## The record as values -/

/-- A single-precision float from its four bytes, the lowest first. -/
def floatOfBytes (b₀ b₁ b₂ b₃ : UInt8) : ExactFloat :=
  let neg := 128 ≤ b₃.toNat
  let exponent := b₃.toNat % 128 * 2 + b₂.toNat / 128
  let fraction := b₂.toNat % 128 * 65536 + b₁.toNat * 256 + b₀.toNat
  if exponent = 255 then (if fraction = 0 then .inf neg else .nan)
  else
    let magnitude : ℚ :=
      if exponent = 0 then fraction / 2 ^ 149
      else (2 ^ 23 + fraction) * 2 ^ exponent / 2 ^ 150
    .fin (if neg then -magnitude else magnitude)

/-- A `short` from its two bytes, the lowest first. -/
def shortOfBytes (b₀ b₁ : UInt8) : Int16 := Int16.ofInt (b₀.toNat + 256 * b₁.toNat)

/-- The calibration an image stands for. -/
def AdjImage.decode (i : AdjImage) : AdjData :=
  let b (n : Fin 14) : UInt8 := i.bytes.get (n.cast i.length_eq.symm)
  { xfac := floatOfBytes (b 0) (b 1) (b 2) (b 3)
    yfac := floatOfBytes (b 4) (b 5) (b 6) (b 7)
    xoff := shortOfBytes (b 8) (b 9)
    yoff := shortOfBytes (b 10) (b 11)
    touchtype := i.touchtype }

/-- The record the EEPROM stands for in the calibration model. -/
def storedAt (e : Contents) : Option AdjData :=
  if HoldsRecord e then some (imageAt e).decode else none

/-- The calibration bytes in RAM and the two commands are those of a state of the calibration model. -/
structure StandsFor (m : AdjMemory) (s : TouchState) : Prop where
  adj_eq : s.dev.toAdjData = m.image.decode
  cmdRdx_eq : s.cmdRdx = m.cmdRdx
  cmdRdy_eq : s.cmdRdy = m.cmdRdy

/-- Reading the bytes back is reading the record back. What the RAM held before only matters where
there is no record. -/
theorem tpGetAdjdata_refines {e : Contents} {m : AdjMemory} {s : TouchState}
    (hstored : s.stored = storedAt e) (h : HoldsRecord e ∨ StandsFor m s) :
    (Touch.tpGetAdjdata s).2 = (tpGetAdjdata e m).2 ∧
      StandsFor (tpGetAdjdata e m).1 (Touch.tpGetAdjdata s).1 := by
  rw [storedAt] at hstored
  by_cases hrec : HoldsRecord e
  · rw [if_pos hrec] at hstored
    have hmark : at24cxxReadOneByte e (saveAddrBase + 14) = 0x0A := hrec
    have htype : ((imageAt e).decode).touchtype = (imageAt e).touchtype := rfl
    rw [tpGetAdjdata, Touch.tpGetAdjdata, hstored]
    dsimp only
    rw [if_pos hmark, TouchState.selectCommands, TouchState.setAdj]
    dsimp only
    -- the commands are chosen by the byte in one model and by its value in the other
    rw [htype]
    split_ifs <;> exact ⟨rfl, rfl, rfl, rfl⟩
  · rw [if_neg hrec] at hstored
    rw [tpGetAdjdata_of_not_holdsRecord hrec, Touch.tpGetAdjdata, hstored]
    exact ⟨rfl, h.resolve_left hrec⟩

/-- A save over an EEPROM without a record that is cut before the marker stores nothing. -/
theorem storedAt_cut_early {e : Contents} (hnone : ¬HoldsRecord e) (new : AdjImage) {k : ℕ}
    (hk : k ≤ 14) : storedAt (applyWrites e ((tpSaveAdjdata new).take k)) = none := by
  rw [storedAt, if_neg]
  rwa [HoldsRecord, (record_cut_early e new hk).2]

/-- With the marker the new record is stored. -/
theorem storedAt_cut_late (e : Contents) (new : AdjImage) {k : ℕ} (hk : 14 < k) :
    storedAt (applyWrites e ((tpSaveAdjdata new).take k)) = some new.decode := by
  obtain ⟨himage, hmark⟩ := record_cut_late e new hk
  rw [storedAt, if_pos hmark, himage]

end Stm32Board.Eeprom
