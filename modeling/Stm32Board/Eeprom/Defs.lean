import Stm32Board.Common.Writes
import Stm32Board.Common.Loop

/-!
# The EEPROM as a byte map

Reference: `AT24CXX_ReadOneByte` to `AT24CXX_Write` of `applications/TOUCH/24cxx.c`, and
`TP_Save_Adjdata` and `TP_Get_Adjdata` of `applications/TOUCH/touch.c`.

One `AT24CXX_WriteOneByte` is an atomic store, so a function that writes is the log of its stores,
and a loss of power cuts the log. The calibration record is the 14 bytes from `&tp_dev.xfac` on,
followed by a marker byte.
-/

namespace Stm32Board.Eeprom

open Common

/-- The contents, by byte address. -/
abbrev Contents : Type := UInt16 → UInt8

def at24cxxReadOneByte (e : Contents) (readAddr : UInt16) : UInt8 := e readAddr

def at24cxxWriteOneByte (writeAddr : UInt16) (dataToWrite : UInt8) : List (UInt16 × UInt8) :=
  [(writeAddr, dataToWrite)]

/-- `AT24CXX_Read` into a buffer of `numToRead` bytes. -/
def at24cxxRead (e : Contents) (readAddr : UInt16) : ℕ → List UInt8
  | 0 => []
  | numToRead + 1 => at24cxxReadOneByte e readAddr :: at24cxxRead e (readAddr + 1) numToRead

/-- `AT24CXX_Write` of a buffer. -/
def at24cxxWrite (writeAddr : UInt16) : List UInt8 → List (UInt16 × UInt8)
  | [] => []
  | b :: bs => at24cxxWriteOneByte writeAddr b ++ at24cxxWrite (writeAddr + 1) bs

/-- `AT24CXX_WriteLenByte`. A shift of the 32-bit data by 32 bits or more is undefined. -/
def at24cxxWriteLenByte (writeAddr : UInt16) (dataToWrite : UInt32) (len : UInt8) :
    Option (List (UInt16 × UInt8)) :=
  forLoop (· + 1) (fun t => decide (t < len))
    (fun t =>
      if 8 * t.toNat < 32 then
        some (at24cxxWriteOneByte (writeAddr + t.toUInt16)
          ((dataToWrite >>> (8 * t.toUInt32)) &&& 0xff).toUInt8)
      else none)
    fuelU8 0

/-- `AT24CXX_ReadLenByte`, with `temp` as the variable of the loop. -/
def at24cxxReadLenByte (e : Contents) (readAddr : UInt16) (len : UInt8) : Option UInt32 :=
  forState (· + 1) (fun t => decide (t < len))
    (fun t temp =>
      some ((temp <<< 8) +
        (at24cxxReadOneByte e (readAddr + len.toUInt16 - t.toUInt16 - 1)).toUInt32))
    fuelU8 0 0

/-! ## The calibration record -/

def saveAddrBase : UInt16 := 40

/-- The 14 bytes from `&tp_dev.xfac` on: two floats, two shorts, `touchtype` and a byte of
padding. -/
@[ext]
structure AdjImage where
  bytes : List UInt8
  length_eq : bytes.length = 14
deriving DecidableEq

/-- `tp_dev.touchtype` inside the image. -/
def AdjImage.touchtype (i : AdjImage) : UInt8 := i.bytes.get ⟨12, by rw [i.length_eq]; decide⟩

/-- The calibration bytes in RAM and the two conversion commands. -/
structure AdjMemory where
  image : AdjImage
  cmdRdx : UInt8
  cmdRdy : UInt8
deriving DecidableEq

/-- The stores of `TP_Save_Adjdata`, the marker last. -/
def tpSaveAdjdata (image : AdjImage) : List (UInt16 × UInt8) :=
  at24cxxWrite saveAddrBase image.bytes ++ at24cxxWriteOneByte (saveAddrBase + 14) 0x0A

/-- As many bytes as asked for are read. -/
theorem length_at24cxxRead (e : Contents) (a : UInt16) (n : ℕ) :
    (at24cxxRead e a n).length = n := by
  induction n generalizing a with
  | zero => rfl
  | succ n ih => rw [at24cxxRead, List.length_cons, ih]

/-- The 14 bytes at the base address. -/
def imageAt (e : Contents) : AdjImage := ⟨at24cxxRead e saveAddrBase 14, length_at24cxxRead e _ _⟩

def tpGetAdjdata (e : Contents) (m : AdjMemory) : AdjMemory × UInt8 :=
  let temp := at24cxxReadOneByte e (saveAddrBase + 14)
  if temp = 0x0A then
    let image := imageAt e
    if image.touchtype ≠ 0 then ({ image := image, cmdRdx := 0x90, cmdRdy := 0xD0 }, 1)
    else ({ image := image, cmdRdx := 0xD0, cmdRdy := 0x90 }, 1)
  else (m, 0)

end Stm32Board.Eeprom
