import Stm32Board.Eeprom.Defs
import Stm32Board.Common.LittleEndian

/-!
# Buffers and multi-byte values in the EEPROM

`AT24CXX_Write` and `AT24CXX_Read` walk a buffer from its first byte on; `AT24CXX_WriteLenByte` emits a
value from its lowest byte on and `AT24CXX_ReadLenByte` collects it from its highest. Each of the four
is described by the addresses from the start on (`consecutive`) and the little-endian bytes of the
value; the round trips follow from the write log (`eeprom_roundTrip`).
-/

namespace Stm32Board.Eeprom

open Common

/-! ## Addresses -/

/-- `n` addresses from `a` on. -/
def consecutive (a : UInt16) : ℕ → List UInt16
  | 0 => []
  | n + 1 => a :: consecutive (a + 1) n

/-- A buffer is written to successive addresses. -/
theorem at24cxxWrite_fst (a : UInt16) (bs : List UInt8) :
    (at24cxxWrite a bs).map Prod.fst = consecutive a bs.length := by
  induction bs generalizing a with
  | nil => rfl
  | cons b bs ih =>
    rw [at24cxxWrite, at24cxxWriteOneByte, List.singleton_append, List.map_cons, ih,
      List.length_cons, consecutive]

/-- Byte by byte in order. -/
theorem at24cxxWrite_snd (a : UInt16) (bs : List UInt8) :
    (at24cxxWrite a bs).map Prod.snd = bs := by
  induction bs generalizing a with
  | nil => rfl
  | cons b bs ih =>
    rw [at24cxxWrite, at24cxxWriteOneByte, List.singleton_append, List.map_cons, ih]

/-- The addresses as offsets from the first. -/
theorem consecutive_eq (a : UInt16) (n : ℕ) :
    consecutive a n = (List.range n).map fun k => a + UInt16.ofNat k := by
  induction n generalizing a with
  | zero => rfl
  | succ n ih =>
    rw [consecutive, ih, List.range_succ_eq_map, List.map_cons, List.map_map]
    refine congrArg₂ _ (UInt16.add_zero a).symm (List.map_congr_left fun k _ => ?_)
    rw [Function.comp_apply, UInt16.add_assoc, Nat.succ_eq_add_one, UInt16.ofNat_add,
      UInt16.add_comm 1]
    rfl

/-- They do not wrap around. -/
theorem toNat_consecutive {a : UInt16} {k n : ℕ} (hn : a.toNat + n ≤ 65536) (hk : k < n) :
    (a + UInt16.ofNat k).toNat = a.toNat + k := by
  rw [UInt16.toNat_add, UInt16.toNat_ofNat']
  omega

/-- The addresses stay inside the range as long as it does not run past the last address. -/
theorem bounds_of_mem_consecutive {a b : UInt16} {n : ℕ} (hn : a.toNat + n ≤ 65536)
    (hb : b ∈ consecutive a n) : a.toNat ≤ b.toNat ∧ b.toNat < a.toNat + n := by
  rw [consecutive_eq, List.mem_map] at hb
  obtain ⟨k, hk, rfl⟩ := hb
  rw [List.mem_range] at hk
  rw [toNat_consecutive hn hk]
  omega

/-- So no address comes twice. -/
theorem nodup_consecutive {a : UInt16} {n : ℕ} (hn : a.toNat + n ≤ 65536) :
    (consecutive a n).Nodup := by
  rw [consecutive_eq]
  refine List.nodup_range.map_on fun j hj k hk h => ?_
  rw [List.mem_range] at hj hk
  have hval := congrArg UInt16.toNat h
  rw [toNat_consecutive hn hj, toNat_consecutive hn hk] at hval
  omega

/-- The log of a write. -/
theorem at24cxxWrite_eq (a : UInt16) (bs : List UInt8) :
    at24cxxWrite a bs = (consecutive a bs.length).zip bs := by
  induction bs generalizing a with
  | nil => rfl
  | cons b bs ih => rw [at24cxxWrite, ih, List.length_cons, consecutive, List.zip_cons_cons]; rfl

/-- A read collects what the addresses hold. -/
theorem at24cxxRead_eq (e : Contents) (a : UInt16) (n : ℕ) :
    at24cxxRead e a n = (consecutive a n).map e := by
  induction n generalizing a with
  | zero => rfl
  | succ n ih => rw [at24cxxRead, ih, consecutive, List.map_cons, at24cxxReadOneByte]

/-! ## Buffers -/

/-- What `AT24CXX_Write` stores, `AT24CXX_Read` of the same range returns. -/
theorem at24cxxRead_applyWrites (e : Contents) {a : UInt16} {bs : List UInt8}
    (h : a.toNat + bs.length ≤ 65536) :
    at24cxxRead (applyWrites e (at24cxxWrite a bs)) a bs.length = bs := by
  have hnodup : ((at24cxxWrite a bs).map Prod.fst).Nodup := by
    rw [at24cxxWrite_fst]
    exact nodup_consecutive h
  have hmap := map_applyWrites e hnodup
  rwa [at24cxxWrite_fst, at24cxxWrite_snd, ← at24cxxRead_eq] at hmap

/-- `AT24CXX_Write` stores nothing outside its range. -/
theorem applyWrites_at24cxxWrite_of_outside (e : Contents) {a b : UInt16} {bs : List UInt8}
    (h : a.toNat + bs.length ≤ 65536) (hb : b.toNat < a.toNat ∨ a.toNat + bs.length ≤ b.toNat) :
    applyWrites e (at24cxxWrite a bs) b = e b := by
  refine applyWrites_of_notMem e fun hmem => ?_
  rw [at24cxxWrite_fst] at hmem
  have hbounds := bounds_of_mem_consecutive h hmem
  omega

/-! ## Values of several bytes -/

/-- The loop counter after `k` rounds. -/
theorem toNat_counter {k : ℕ} (hk : k ≤ 255) : ((· + 1)^[k] (0 : UInt8)).toNat = k := by
  rw [toNat_iterate_add_one_u8, UInt8.toNat_zero]
  omega

/-- Byte `k` of the data is byte `k` of its little-endian encoding. -/
theorem dataByte_eq (v : UInt32) {t : UInt8} {k : ℕ} (ht : t.toNat = k) (hk : k < 4) :
    ((v >>> (8 * t.toUInt32)) &&& 0xff).toUInt8 = UInt8.ofNat (v.toNat / 256 ^ k) := by
  have hshift : (8 * t.toUInt32).toNat % 32 = 8 * k := by
    rw [UInt32.toNat_mul, UInt8.toNat_toUInt32, ht]
    show 8 * k % 4294967296 % 32 = 8 * k
    omega
  have hlow : ((v >>> (8 * t.toUInt32)) &&& 0xff).toNat = v.toNat / 256 ^ k % 256 := by
    rw [UInt32.toNat_and, UInt32.toNat_shiftRight, hshift, Nat.shiftRight_eq_div_pow, Nat.pow_mul]
    exact Nat.and_two_pow_sub_one_eq_mod _ 8
  rw [← UInt8.toNat_inj, UInt32.toNat_toUInt8, hlow, UInt8.toNat_ofNat']
  omega

/-- `AT24CXX_WriteLenByte` stores the little-endian bytes of its data, for up to the four bytes the
data has. -/
theorem at24cxxWriteLenByte_eq (a : UInt16) (v : UInt32) {len : UInt8} (hlen : len.toNat ≤ 4) :
    at24cxxWriteLenByte a v len = some (at24cxxWrite a (littleEndian len.toNat v.toNat)) := by
  have hlog : at24cxxWrite a (littleEndian len.toNat v.toNat) = (List.range len.toNat).flatMap
      fun k => at24cxxWriteOneByte (a + UInt16.ofNat k) (UInt8.ofNat (v.toNat / 256 ^ k)) := by
    rw [at24cxxWrite_eq, length_littleEndian, consecutive_eq, littleEndian, List.zip_map',
      List.map_eq_flatMap]
    rfl
  rw [at24cxxWriteLenByte, hlog]
  refine forLoop_eq_some _ (fun k hk => ?_) ?_ (fun k hk => ?_) (by rw [fuelU8]; omega)
  · rw [decide_eq_true_eq, UInt8.lt_iff_toNat_lt, toNat_counter (by omega)]
    exact hk
  · rw [decide_eq_false_iff_not, UInt8.lt_iff_toNat_lt, toNat_counter (by omega)]
    exact lt_irrefl _
  · have hcount := toNat_counter (show k ≤ 255 by omega)
    rw [hcount, if_pos (by omega), dataByte_eq v hcount (by omega)]
    rw [← UInt16.ofNat_uInt8ToNat, hcount]

/-- One more byte below the ones collected so far. -/
theorem shiftIn_eq (x : ℕ) (b : UInt8) :
    (UInt32.ofNat x <<< 8) + b.toUInt32 = UInt32.ofNat (b.toNat + 256 * x) := by
  have hshift : (UInt32.ofNat x <<< 8).toNat = x % 4294967296 * 256 % 4294967296 := by
    rw [UInt32.toNat_shiftLeft, Nat.shiftLeft_eq, UInt32.toNat_ofNat']
    rfl
  rw [← UInt32.toNat_inj, UInt32.toNat_add, hshift, UInt8.toNat_toUInt32, UInt32.toNat_ofNat']
  omega

/-- `AT24CXX_ReadLenByte` returns the value of the bytes it reads, modulo `2 ^ 32`. -/
theorem at24cxxReadLenByte_eq (e : Contents) (a : UInt16) (len : UInt8) :
    at24cxxReadLenByte e a len =
      some (UInt32.ofNat (ofLittleEndian (at24cxxRead e a len.toNat))) := by
  have hlt := len.toNat_lt
  have hlength := length_at24cxxRead e a len.toNat
  -- after `k` rounds `temp` stands for the last `k` bytes of the range
  let temp (k : ℕ) : UInt32 :=
    UInt32.ofNat (ofLittleEndian ((at24cxxRead e a len.toNat).drop (len.toNat - k)))
  have hfirst : temp 0 = 0 := by
    show UInt32.ofNat (ofLittleEndian ((at24cxxRead e a len.toNat).drop (len.toNat - 0))) = 0
    rw [List.drop_of_length_le (by omega)]
    rfl
  have hlast : temp len.toNat = UInt32.ofNat (ofLittleEndian (at24cxxRead e a len.toNat)) := by
    show UInt32.ofNat (ofLittleEndian (List.drop (len.toNat - len.toNat) _)) = _
    rw [Nat.sub_self, List.drop_zero]
  rw [at24cxxReadLenByte, ← hfirst, ← hlast]
  refine forState_eq_some temp (fun k hk => ?_) ?_ (fun k hk => ?_) (by rw [fuelU8]; omega)
  · rw [decide_eq_true_eq, UInt8.lt_iff_toNat_lt, toNat_counter (by omega)]
    exact hk
  · rw [decide_eq_false_iff_not, UInt8.lt_iff_toNat_lt, toNat_counter (by omega)]
    exact lt_irrefl _
  · have hcount := toNat_counter (show k ≤ 255 by omega)
    have haddr : a + len.toUInt16 - ((· + 1)^[k] (0 : UInt8)).toUInt16 - 1 =
        a + UInt16.ofNat (len.toNat - (k + 1)) := by
      rw [← UInt16.toNat_inj]
      simp only [UInt16.toNat_sub, UInt16.toNat_add, UInt8.toNat_toUInt16, hcount,
        UInt16.toNat_ofNat', UInt16.toNat_one]
      omega
    have hbyte : (at24cxxRead e a len.toNat).drop (len.toNat - (k + 1)) =
        e (a + UInt16.ofNat (len.toNat - (k + 1))) ::
          (at24cxxRead e a len.toNat).drop (len.toNat - k) := by
      rw [List.drop_eq_getElem_cons (by omega), show len.toNat - (k + 1) + 1 = len.toNat - k by omega]
      congr 1
      simp only [at24cxxRead_eq, consecutive_eq, List.getElem_map, List.getElem_range]
    rw [at24cxxReadOneByte, haddr, shiftIn_eq, ← ofLittleEndian_cons, ← hbyte]

/-! ## Round trips -/

/-- **The EEPROM as a store of buffers and values.** Inside the 256 bytes a buffer that is written is
read back and no other byte changes; a value of at most four bytes is read back modulo its width, and
is stored as its little-endian bytes would be. -/
theorem eeprom_roundTrip (e : Contents) (a : UInt16) :
    (∀ bs : List UInt8, a.toNat + bs.length ≤ 256 →
      at24cxxRead (applyWrites e (at24cxxWrite a bs)) a bs.length = bs ∧
      ∀ b : UInt16, b.toNat < a.toNat ∨ a.toNat + bs.length ≤ b.toNat →
        applyWrites e (at24cxxWrite a bs) b = e b) ∧
    ∀ (v : UInt32) (len : UInt8), len.toNat ≤ 4 → a.toNat + len.toNat ≤ 256 →
      ∃ ws, at24cxxWriteLenByte a v len = some ws ∧
        at24cxxReadLenByte (applyWrites e ws) a len =
          some (UInt32.ofNat (v.toNat % 2 ^ (8 * len.toNat))) ∧
        applyWrites e ws =
          applyWrites e (at24cxxWrite a (littleEndian len.toNat v.toNat)) := by
  constructor
  · intro bs h
    exact ⟨at24cxxRead_applyWrites e (by omega),
      fun b hb => applyWrites_at24cxxWrite_of_outside e (by omega) hb⟩
  · intro v len hlen h
    refine ⟨_, at24cxxWriteLenByte_eq a v hlen, ?_, rfl⟩
    have hfits : a.toNat + (littleEndian len.toNat v.toNat).length ≤ 65536 := by
      rw [length_littleEndian]
      omega
    have hread := at24cxxRead_applyWrites e hfits
    rw [length_littleEndian] at hread
    rw [at24cxxReadLenByte_eq, hread, ofLittleEndian_littleEndian, Nat.pow_mul]

/-- The last two bytes, and a value of four. -/
theorem eeprom_roundTrip_last (e : Contents) :
    at24cxxRead (applyWrites e (at24cxxWrite 254 [0x55, 0xAA])) 254 2 = [0x55, 0xAA] ∧
      ∃ ws, at24cxxWriteLenByte 252 0x12345678 4 = some ws ∧
        at24cxxReadLenByte (applyWrites e ws) 252 4 = some 0x12345678 := by
  have hbuffer := ((eeprom_roundTrip e 254).1 [0x55, 0xAA] (by decide)).1
  obtain ⟨ws, hws, hread, -⟩ := (eeprom_roundTrip e 252).2 0x12345678 4 (by decide) (by decide)
  exact ⟨hbuffer, ws, hws, hread⟩

end Stm32Board.Eeprom
