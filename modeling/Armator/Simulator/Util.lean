import Armator.Lib.Bits
import Armator.Lib.ByteOrder

/-! `util.h`, `util.c` and the constants of `arm_constants.h`.
A `uint32_t` is a `BitVec 32`, a `uint8_t` a `BitVec 8`, a literal bit number a `Nat`.
-/

namespace Armator

-----------------------------------------------------------------------------------------
-- The host: byte order, and shifts that C does not define
-----------------------------------------------------------------------------------------

/-- What the program takes from the machine and compiler it runs on.
C leaves a shift of a 32-bit value by a negative count or by 32 or more undefined. Here
the host chooses the result, and nothing is assumed about its choice.
-/
structure Host where
  order : ByteOrder
  shlBeyond : BitVec 32 → Int → BitVec 32
  shrBeyond : BitVec 32 → Int → BitVec 32

/-- A host of the given byte order whose undefined shifts all give the same word. -/
def Host.constant (order : ByteOrder) (beyond : BitVec 32) : Host :=
  { order, shlBeyond := fun _ _ => beyond, shrBeyond := fun _ _ => beyond }

/-- A host of the given byte order whose undefined shifts give 0. -/
def Host.plain (order : ByteOrder) : Host :=
  .constant order 0

/-- `value << count` on 32 bits. -/
def Host.shl (host : Host) (value : BitVec 32) (count : Int) : BitVec 32 :=
  if 0 ≤ count ∧ count < 32 then value <<< count.toNat else host.shlBeyond value count

/-- `value >> count` on 32 bits, for an unsigned or a nonnegative `value`. -/
def Host.shr (host : Host) (value : BitVec 32) (count : Int) : BitVec 32 :=
  if 0 ≤ count ∧ count < 32 then value >>> count.toNat else host.shrBeyond value count

/-- `is_big_endian`: the first byte of the representation of the word 1 is 0. -/
def Host.isBigEndian (host : Host) : Int :=
  if host.order.byteOf 1#32 0 = 0 then 1 else 0

-----------------------------------------------------------------------------------------
-- Bit macros
-----------------------------------------------------------------------------------------

def getBit (x : BitVec 32) (i : Nat) : BitVec 32 :=
  (x >>> i) &&& 1

def setBit (x : BitVec 32) (i : Nat) : BitVec 32 :=
  x ||| (1#32 <<< i)

def clrBit (x : BitVec 32) (i : Nat) : BitVec 32 :=
  x &&& ~~~(1#32 <<< i)

/-- `get_bits`: the mask starts from the `int` `~0`, whose right shift keeps the sign. -/
def getBits (x : BitVec 32) (h l : Nat) : BitVec 32 :=
  (x >>> l) &&& ~~~(((~~~0#32).sshiftRight (h - l + 1)) <<< (h - l + 1))

def reverse2 (x : BitVec 16) : BitVec 16 :=
  ((x &&& 0xFF) <<< 8) ||| ((x >>> 8) &&& 0xFF)

def reverse4 (x : BitVec 32) : BitVec 32 :=
  ((x &&& 0xFF) <<< 24) ||| (((x >>> 8) &&& 0xFF) <<< 16) |||
    (((x >>> 16) &&& 0xFF) <<< 8) ||| ((x >>> 24) &&& 0xFF)

-----------------------------------------------------------------------------------------
-- Shift helpers
-----------------------------------------------------------------------------------------

def asr (host : Host) (value : BitVec 32) (shift : BitVec 8) : BitVec 32 :=
  host.shr value shift.toNat |||
    (if getBit value 31 ≠ 0 then host.shl (~~~0) (32 - shift.toNat) else 0)

def ror (host : Host) (value : BitVec 32) (rotation : BitVec 8) : BitVec 32 :=
  host.shr value rotation.toNat ||| host.shl value (32 - rotation.toNat)

-----------------------------------------------------------------------------------------
-- Conditions
-----------------------------------------------------------------------------------------

/-- `cond`, in the order of the source. -/
inductive Cond where
  | EQ | NE | CS_HS | CC_LO | MI | PL | VS | VC | HI | LS | GE | LT | GT | LE | AL
deriving DecidableEq, Repr

/-- `arm_get_cond`; the cast of 15 to `cond` matches no enumerator. -/
def armGetCond (ins : BitVec 32) : Option Cond :=
  match ((ins &&& 0xf0000000) >>> 28).toNat with
  | 0 => some .EQ
  | 1 => some .NE
  | 2 => some .CS_HS
  | 3 => some .CC_LO
  | 4 => some .MI
  | 5 => some .PL
  | 6 => some .VS
  | 7 => some .VC
  | 8 => some .HI
  | 9 => some .LS
  | 10 => some .GE
  | 11 => some .LT
  | 12 => some .GT
  | 13 => some .LE
  | 14 => some .AL
  | _ => none

-- The bits of the CPSR that `arm_constants.h` names.
namespace CpsrBit
abbrev N : Nat := 31
abbrev Z : Nat := 30
abbrev C : Nat := 29
abbrev V : Nat := 28
abbrev T : Nat := 5
end CpsrBit

open CpsrBit in
/-- `ConditionPassed`; the `int` it returns is only used as a truth value. -/
def conditionPassed (cpsr ins : BitVec 32) : Bool :=
  match armGetCond ins with
  | some .EQ => getBit cpsr Z ≠ 0
  | some .NE => ¬ getBit cpsr Z ≠ 0
  | some .CS_HS => getBit cpsr C ≠ 0
  | some .CC_LO => ¬ getBit cpsr C ≠ 0
  | some .MI => getBit cpsr N ≠ 0
  | some .PL => ¬ getBit cpsr N ≠ 0
  | some .VS => getBit cpsr V ≠ 0
  | some .VC => ¬ getBit cpsr V ≠ 0
  | some .HI => getBit cpsr C ≠ 0 ∧ ¬ getBit cpsr Z ≠ 0
  | some .LS => ¬ getBit cpsr C ≠ 0 ∨ getBit cpsr Z ≠ 0
  | some .GE => getBit cpsr N = getBit cpsr V
  | some .LT => getBit cpsr N ≠ getBit cpsr V
  | some .GT => ¬ getBit cpsr Z ≠ 0 ∧ getBit cpsr N = getBit cpsr V
  | some .LE => getBit cpsr Z ≠ 0 ∨ getBit cpsr N ≠ getBit cpsr V
  | some .AL => true
  | none => false

-----------------------------------------------------------------------------------------
-- Processor modes and exception numbers
-----------------------------------------------------------------------------------------

-- The modes, as the low five bits of a PSR encode them.
namespace Mode
abbrev USR : BitVec 8 := 0x10
abbrev IRQ : BitVec 8 := 0x12
abbrev SVC : BitVec 8 := 0x13
abbrev SYS : BitVec 8 := 0x1f
end Mode

-- The exception numbers, as the instruction decoders return them.
namespace ArmException
abbrev RESET : Int := 1
abbrev UNDEFINED_INSTRUCTION : Int := 2
abbrev SOFTWARE_INTERRUPT : Int := 3
abbrev PREFETCH_ABORT : Int := 4
abbrev DATA_ABORT : Int := 5
end ArmException

-- The bits of a PSR that MSR may write, by kind.
namespace PsrMask
abbrev UnallocMask : BitVec 32 := 0x0FFFFF00
abbrev UserMask : BitVec 32 := 0xF0000000
abbrev PrivMask : BitVec 32 := 0x0000000F
abbrev StateMask : BitVec 32 := 0x00000020
end PsrMask

-----------------------------------------------------------------------------------------
-- The macros in terms of bits
-----------------------------------------------------------------------------------------

theorem getBit_eq (x : BitVec 32) (i : Nat) : getBit x i = if x.getLsbD i then 1 else 0 :=
  Bits.ushiftRight_and_one x i

@[simp]
theorem getBit_eq_one_iff (x : BitVec 32) (i : Nat) : getBit x i = 1#32 ↔ x.getLsbD i = true := by
  rw [getBit_eq]
  split <;> simp_all

@[simp]
theorem getBit_eq_zero_iff (x : BitVec 32) (i : Nat)
    : getBit x i = 0#32 ↔ x.getLsbD i = false := by
  rw [getBit_eq]
  split <;> simp_all

/-- A bit used as a truth value. -/
theorem getBit_ne_zero_iff (x : BitVec 32) (i : Nat) : getBit x i ≠ 0 ↔ x.getLsbD i = true := by
  rw [← Bool.not_eq_false, ← getBit_eq_zero_iff]
  exact Iff.rfl

@[simp]
theorem getBit_inj (x y : BitVec 32) (i j : Nat)
    : getBit x i = getBit y j ↔ x.getLsbD i = y.getLsbD j := by
  rw [getBit_eq, getBit_eq]
  cases x.getLsbD i <;> cases y.getLsbD j <;> decide

/-- A bit narrowed to a `uint8_t` is 0 exactly when the bit is clear. -/
theorem getBit_setWidth_eq_zero_iff (x : BitVec 32) (i : Nat)
    : (getBit x i).setWidth 8 = 0 ↔ x.getLsbD i = false := by
  rw [getBit_eq]
  cases x.getLsbD i <;> decide

theorem setBit_eq (x : BitVec 32) (i : Nat) : setBit x i = Bits.putBit x i true := rfl

theorem clrBit_eq (x : BitVec 32) (i : Nat) : clrBit x i = Bits.putBit x i false := rfl

/-- A field read with `get_bits` is the field as a number. -/
theorem getBits_eq (x : BitVec 32) (h l : Nat)
    : getBits x h l = (x.extractLsb' l (h - l + 1)).setWidth 32 := by
  have ones : (~~~0#32).sshiftRight (h - l + 1) = BitVec.allOnes 32 := by
    change (BitVec.allOnes 32).sshiftRight (h - l + 1) = BitVec.allOnes 32
    apply BitVec.eq_of_getLsbD_eq
    intro j hj
    rw [BitVec.getLsbD_sshiftRight, BitVec.msb_allOnes (by decide)]
    simp only [BitVec.getLsbD_allOnes, hj]
    split <;> simp_all
  rw [getBits, ones, Bits.ushiftRight_and_lowMask]

/-- The lowest field of a word is the narrowed word. -/
theorem getBits_low (x : BitVec 32) {w : Nat} (positive : 0 < w) (fits : w ≤ 32)
    : (getBits x (w - 1) 0).setWidth w = x.setWidth w := by
  rw [getBits_eq, Nat.sub_zero, Nat.sub_add_cancel positive,
    BitVec.setWidth_setWidth_of_le _ fits, BitVec.setWidth_eq, ← BitVec.setWidth_eq_extractLsb' fits]

theorem getBit_cases (x : BitVec 32) (i : Nat) : getBit x i = 0 ∨ getBit x i = 1 := by
  rw [getBit_eq]
  cases x.getLsbD i
  · exact .inl rfl
  · exact .inr rfl

/-- A field of `k` bits is below `2 ^ k`. -/
theorem toNat_getBits_lt (x : BitVec 32) (h l : Nat) (fits : h - l + 1 ≤ 32)
    : (getBits x h l).toNat < 2 ^ (h - l + 1) := by
  rw [getBits_eq, BitVec.toNat_setWidth_of_le fits]
  exact (x.extractLsb' l (h - l + 1)).isLt

/-- A register number is a field of four bits. -/
theorem getBits_registerField (x : BitVec 32) (l : Nat)
    : (getBits x (l + 3) l).setWidth 8 = ((x.extractLsb' l 4).setWidth 8 : BitVec 8) := by
  rw [getBits_eq]
  apply BitVec.eq_of_getLsbD_eq
  intro j hj
  simp only [BitVec.getLsbD_setWidth, BitVec.getLsbD_extractLsb', Nat.add_sub_cancel_left,
    Nat.reduceAdd]
  grind

/-- A four-bit field is a register number. -/
theorem toNat_registerField_lt (x : BitVec 32) (l : Nat)
    : ((getBits x (l + 3) l).setWidth 8 : BitVec 8).toNat < 16 := by
  have bound := toNat_getBits_lt x (l + 3) l (by omega)
  rw [show l + 3 - l + 1 = 4 by omega] at bound
  rw [BitVec.toNat_setWidth]
  omega

/-- The tests of `ConditionPassed` on the four flag bits. -/
theorem conditionPassed_eq (cpsr ins : BitVec 32)
    : conditionPassed cpsr ins =
      let n := cpsr.getLsbD CpsrBit.N
      let z := cpsr.getLsbD CpsrBit.Z
      let c := cpsr.getLsbD CpsrBit.C
      let v := cpsr.getLsbD CpsrBit.V
      match armGetCond ins with
      | some .EQ => z
      | some .NE => !z
      | some .CS_HS => c
      | some .CC_LO => !c
      | some .MI => n
      | some .PL => !n
      | some .VS => v
      | some .VC => !v
      | some .HI => c && !z
      | some .LS => !c || z
      | some .GE => n == v
      | some .LT => n != v
      | some .GT => !z && n == v
      | some .LE => z || n != v
      | some .AL => true
      | none => false := by
  simp only [conditionPassed, BitVec.ofNat_eq_ofNat, ne_eq, getBit_eq_zero_iff, getBit_inj]
  generalize cpsr.getLsbD CpsrBit.N = n, cpsr.getLsbD CpsrBit.Z = z,
    cpsr.getLsbD CpsrBit.C = c, cpsr.getLsbD CpsrBit.V = v
  cases armGetCond ins with
  | none => rfl
  | some cond => cases cond <;> cases n <;> cases z <;> cases c <;> cases v <;> rfl

end Armator
