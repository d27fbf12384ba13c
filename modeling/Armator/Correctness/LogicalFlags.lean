import Armator.Architecture.ShifterOperand
import Armator.Correctness.DataProcessingResults

/-! The flags of the logical opcodes: N, Z and V are always right, and C takes no notice of the
shifter.
-/

namespace Armator

open Bits Opcode

/-- The logical opcodes that leave C alone. The others clear it. -/
def Opcode.keepsCarry : Opcode → Bool
  | ORR | MOV | MVN => true
  | _ => false

/-- The CPSR that a result leaves in the opcodes that keep C. -/
theorem armReadCpsr_updateZN (p : ArmCore) (result : BitVec 32)
    : armReadCpsr (updateZN p result)
      = Flags.put
          { n := result.msb
            z := result = 0
            c := (armReadCpsr p).getLsbD CpsrBit.C
            v := (armReadCpsr p).getLsbD CpsrBit.V }
          (armReadCpsr p) := by
  rw [updateZN_eq, armReadCpsr_armWriteCpsr, ← putCarry_eq_put]
  refine ((putBit_eq_self_iff _ 29 _ (by decide)).mpr ?_).symm
  rw [getLsbD_putBit, if_neg (by decide), getLsbD_putBit, if_neg (by decide)]

/-- The CPSR that a result leaves in the opcodes that clear C. -/
theorem armReadCpsr_updateZN_clear (p : ArmCore) (result : BitVec 32)
    : armReadCpsr (armWriteCpsr (updateZN p result)
        (armReadCpsr (updateZN p result) &&& ~~~(1#32 <<< 29)))
      = Flags.put
          { n := result.msb, z := result = 0, c := false, v := (armReadCpsr p).getLsbD CpsrBit.V }
          (armReadCpsr p) := by
  rw [armReadCpsr_armWriteCpsr, updateZN_eq, armReadCpsr_armWriteCpsr, ← putCarry_eq_put]
  rfl

/-- A logical opcode that sets flags leaves N and Z of its result, C kept or cleared, and the old
V. Witness: one case for each opcode; the moves read their result back from Rd.
-/
theorem armReadCpsr_executeLogical (p : ArmCore) {op : Opcode} {rd : BitVec 8} (a b : BitVec 32)
    {bitS : BitVec 8} (bitC bitV : BitVec 8) (logical : op.isLogical) (sets : bitS ≠ 0)
    (isRegister : rd.toNat < 16) (notPc : op.writesResult → rd ≠ 15)
    : armReadCpsr (executeOpcode p op.code rd a b bitS bitC bitV).2
      = (op.logicalFlags a b (armReadCpsr p) (op.keepsCarry && carryFlag p)).put
          (armReadCpsr p) := by
  have tst (x y : BitVec 32) := armReadCpsr_updateZN_clear p (x &&& y)
  have moved (value : BitVec 32) (notPc : rd ≠ 15)
      : armReadCpsr (updateZN (armWriteRegister p rd value)
          (armReadRegister (armWriteRegister p rd value) rd))
        = Flags.put
            { n := value.msb
              z := value = 0
              c := (armReadCpsr p).getLsbD CpsrBit.C
              v := (armReadCpsr p).getLsbD CpsrBit.V }
            (armReadCpsr p) := by
    rw [armReadRegister_of_ne _ _ notPc, armWriteRegister_reg, readRegister_writeRegister,
      if_pos ⟨rfl, isRegister⟩, armReadCpsr_updateZN, armReadCpsr_armWriteRegister]
  cases op <;> try contradiction
  case TST => exact tst a b
  case TEQ => exact armReadCpsr_updateZN_clear p (a ^^^ b)
  case AND =>
    simp only [executeOpcode, code, armAnd, if_pos sets, armReadCpsr_armWriteRegister]
    exact tst a b
  case EOR =>
    simp only [executeOpcode, code, armEor, if_pos sets, armReadCpsr_armWriteRegister]
    exact armReadCpsr_updateZN_clear p (a ^^^ b)
  case BIC =>
    simp only [executeOpcode, code, armBic, if_pos sets, armReadCpsr_armWriteRegister]
    exact tst a (~~~b)
  case ORR =>
    simp only [executeOpcode, code, armOrr, if_pos sets, armReadCpsr_armWriteRegister]
    exact armReadCpsr_updateZN p (a ||| b)
  case MOV =>
    simp only [executeOpcode, code, armMov, if_pos sets]
    exact moved b (notPc rfl)
  case MVN =>
    simp only [executeOpcode, code, armMvn, if_pos sets]
    exact moved (~~~b) (notPc rfl)

/-- When the carry that the code leaves is the shifter's: for the opcodes that keep C, nothing or
a bit like C is shifted out; for the others a clear bit is, or nothing and C is clear.
-/
def LogicalCarryExact (p : ArmCore) (ins : BitVec 32) : Prop :=
  match operandLastOut p ins with
  | none => (decode ins).keepsCarry ∨ carryFlag p = false
  | some bit => bit = ((decode ins).keepsCarry && carryFlag p)

theorem shifterCarryOut_iff (p : ArmCore) (ins : BitVec 32)
    : ((decode ins).keepsCarry && carryFlag p) = shifterCarryOut p ins
      ↔ LogicalCarryExact p ins := by
  unfold LogicalCarryExact shifterCarryOut
  cases operandLastOut p ins with
  | none =>
      change ((decode ins).keepsCarry && carryFlag p) = carryFlag p ↔ _
      cases (decode ins).keepsCarry <;> cases carryFlag p <;> decide
  | some bit => exact eq_comm

/-- A logical instruction that sets flags leaves the architecture's flags and every other CPSR bit
exactly in the states and for the words of `LogicalCarryExact`. Witness: of the four flags the
code leaves only C can differ.
-/
theorem armDataProcessingShift_logicalFlags_iff (host : Host) (p : ArmCore) (ins a b : BitVec 32)
    (passes : conditionPassed (armReadCpsr p) ins)
    (operand : decodeOperand host p ins = (0, a, b)) (logical : (decode ins).isLogical)
    (sets : ins.getLsbD 20 = true) (notPc : (decode ins).writesResult → dpRd ins ≠ 15)
    : armReadCpsr (armDataProcessingShift host p ins).2
        = ((decode ins).logicalFlags a b (armReadCpsr p) (shifterCarryOut p ins)).put
            (armReadCpsr p)
      ↔ LogicalCarryExact p ins := by
  have setsBit : (getBit ins 20).setWidth 8 ≠ 0 := by
    rw [ne_eq, getBit_setWidth_eq_zero_iff, sets]
    decide
  rw [armDataProcessingShift_eq passes operand,
    armReadCpsr_executeLogical p a b _ _ logical setsBit (dpRd_lt ins) notPc, Flags.put_inj,
    ← shifterCarryOut_iff]
  constructor
  · intro same
    exact congrArg Flags.c same
  · intro same
    rw [same]

/-- ANDS r1, r2, r3, LSL #1 shifts a zero out of 3. -/
theorem ands_flags
    : armReadCpsr (armDataProcessingShift (.plain .little) (twoOperands 6 3) 0xE0121083).2
        = ((decode 0xE0121083).logicalFlags 6 6 (armReadCpsr (twoOperands 6 3))
            (shifterCarryOut (twoOperands 6 3) 0xE0121083)).put
              (armReadCpsr (twoOperands 6 3)) :=
  (armDataProcessingShift_logicalFlags_iff (.plain .little) (twoOperands 6 3) 0xE0121083 6 6
    (by decide +kernel) (by decide +kernel) rfl (by decide) fun _ => by decide +kernel).mpr
    ((shifterCarryOut_iff _ _).mp (by decide +kernel))

/-- MOVS r1, r3, LSL #1 with the sign bit alone in r3 shifts it out, and C stays clear. -/
theorem movs_carry
    : let p := twoOperands 0 0x80000000
      conditionPassed (armReadCpsr p) 0xE1B01083 = true
      ∧ decodeOperand (.plain .little) p 0xE1B01083 = (0, 0, 0)
      ∧ decode 0xE1B01083 = MOV
      ∧ (0xE1B01083 : BitVec 32).getLsbD 20 = true
      ∧ shifterCarryOut p 0xE1B01083 = true
      ∧ carryFlag (armDataProcessingShift (.plain .little) p 0xE1B01083).2 = false := by
  decide +kernel

end Armator
