import Armator.Architecture.DataProcessing
import Armator.Correctness.FlagUpdates

/-! The register a data-processing instruction writes, and what it leaves alone. -/

namespace Armator

open Opcode

/-- The destination field of a data-processing word. -/
def dpRd (ins : BitVec 32) : BitVec 8 :=
  ((ins >>> 12) &&& 0xf).setWidth 8

/-- The carry flag of a state. -/
def carryFlag (p : ArmCore) : Bool :=
  (armReadCpsr p).getLsbD CpsrBit.C

/-- A four-bit field is a register number. -/
theorem toNat_and_0xf_lt (x : BitVec 32) : ((x &&& 0xf).setWidth 8).toNat < 16 := by
  have mask : (x &&& 0xf).toNat ≤ 15 := by
    rw [BitVec.toNat_and]
    exact Nat.and_le_right
  rw [BitVec.toNat_setWidth]
  omega

theorem dpRd_lt (ins : BitVec 32) : (dpRd ins).toNat < 16 :=
  toNat_and_0xf_lt _

/-- The source's opcode number is the architecture's field. -/
theorem opcodeField_eq (ins : BitVec 32)
    : (((ins >>> 21) &&& 0xf).setWidth 8 : BitVec 8).toNat = (decode ins).code := by
  have field := Bits.toNat_ushiftRight_and_mask ins 21 4 (by decide)
  have bound := (ins.extractLsb' 21 4).isLt
  rw [code_decode, BitVec.toNat_setWidth]
  change ((ins >>> 21) &&& 0xf).toNat % 2 ^ 8 = _
  rw [show (0xf : BitVec 32) = BitVec.ofNat 32 (2 ^ 4 - 1) from rfl, field]
  omega

/-- The register and value that the code writes for an opcode. RSB subtracts in the order of
SUB, and RSC takes its register number from the first operand.
-/
def codeWrite (op : Opcode) (rd : BitVec 8) (a b : BitVec 32) (c : Bool)
    : Option (BitVec 8 × BitVec 32) :=
  match op with
  | TST | TEQ | CMP | CMN => none
  | RSB => some (rd, a - b)
  | RSC => some (a.setWidth 8, b - rd.setWidth 32 - borrowIn c)
  | op => some (rd, op.result a b c)

/-- The state after an optional register write. -/
def applyWrite (p : ArmCore) : Option (BitVec 8 × BitVec 32) → ArmCore
  | none => p
  | some (reg, value) => armWriteRegister p reg value

/-- The source's `bit_c`, widened again, is the carry that ADC adds. -/
theorem bitC_setWidth_eq (p : ArmCore)
    : ((getBit (armReadCpsr p) 29).setWidth 8 : BitVec 8).setWidth 32
      = carryIn (carryFlag p) := by
  rw [getBit_eq, carryIn, carryFlag]
  cases (armReadCpsr p).getLsbD 29 <;> rfl

/-- The source's `!bit_c` is the borrow that SBC and RSC take. -/
theorem cNot_bitC_eq (p : ArmCore)
    : cNot ((getBit (armReadCpsr p) 29).setWidth 8) = borrowIn (carryFlag p) := by
  rw [getBit_eq, borrowIn, carryFlag]
  cases (armReadCpsr p).getLsbD 29 <;> rfl

/-- Every opcode is its register write, if it has one, and a change of the flags.
Witness: sixteen cases; the opcodes that return their result set flags before the write.
-/
theorem executeOpcode_eq (p : ArmCore) (op : Opcode) (rd : BitVec 8) (a b : BitVec 32)
    (bitS bitV : BitVec 8)
    : ∃ q,
        executeOpcode p op.code rd a b bitS ((getBit (armReadCpsr p) 29).setWidth 8) bitV
          = (0, q)
        ∧ FlagsOnly (applyWrite p (codeWrite op rd a b (carryFlag p))) q := by
  have before {q : ArmCore} {reg : BitVec 8} {value : BitVec 32} (h : FlagsOnly p q)
      : FlagsOnly (armWriteRegister p reg value) (armWriteRegister q reg value) := by
    obtain ⟨flags, rfl⟩ := h
    exact ⟨flags, armReadCpsr_armWriteRegister p reg value ▸ armWriteRegister_armWriteCpsr ..⟩
  have carry := bitC_setWidth_eq p
  have borrow := cNot_bitC_eq p
  generalize (getBit (armReadCpsr p) 29).setWidth 8 = bitC at carry borrow ⊢
  refine ⟨_, Prod.ext ?_ rfl, ?_⟩
  · cases op <;> rfl
  cases op
  case AND => exact before (.ite (.armTst p a b))
  case EOR => exact before (.ite (.armTeq p a b))
  case SUB => exact before (.ite (.armCmp p a b _ _))
  case ORR => exact before (.ite (.updateZN p _))
  case ADD => exact before (.ite (.armCmp p a b _ _))
  case BIC => exact before (.ite (.armTst p a _))
  case TST => exact .armTst p a b
  case TEQ => exact .armTeq p a b
  case CMP => exact .armCmp p a b _ _
  case CMN => exact .armCmn p a b _
  case MOV => exact .ite (.updateZN _ _)
  case MVN => exact .ite (.updateZN _ _)
  case ADC =>
    simp only [codeWrite, applyWrite, result, ← carry]
    exact before (.ite (.armCmn p a _ _))
  case SBC =>
    simp only [codeWrite, applyWrite, result, ← borrow]
    exact before (.ite (.armCmp p a _ _ _))
  case RSB =>
    exact .ite (((FlagsOnly.updateZN _ _).trans (.updateC _ _ _ _)).trans (.updateV _ _))
  case RSC =>
    simp only [codeWrite, applyWrite, ← borrow]
    exact .ite (((FlagsOnly.updateZN _ _).trans (.updateC _ _ _ _)).trans (.updateV _ _))

/-- The instruction succeeds, writes the opcode's result to Rd and changes no other register,
no SPSR and no memory.
-/
structure WritesResult (p : ArmCore) (op : Opcode) (rd : BitVec 8) (a b : BitVec 32)
    (outcome : Int × ArmCore)
    : Prop where
  status : outcome.1 = 0
  written :
    op.writesResult → readRegister outcome.2.reg rd = op.result a b (carryFlag p)
  others :
    ∀ reg,
      (op.writesResult → reg ≠ rd)
      → readRegister outcome.2.reg reg = readRegister p.reg reg
  spsr : armReadSpsr outcome.2 = armReadSpsr p
  memory : outcome.2.mem = p.mem

/-- The register write that the architecture asks for. -/
def archWrite (op : Opcode) (rd : BitVec 8) (a b : BitVec 32) (c : Bool)
    : Option (BitVec 8 × BitVec 32) :=
  if op.writesResult then some (rd, op.result a b c) else none

/-- The code performs the architecture's write, except for RSB and RSC. -/
theorem codeWrite_eq_archWrite {op : Opcode} (notRsb : op ≠ RSB) (notRsc : op ≠ RSC)
    (rd : BitVec 8) (a b : BitVec 32) (c : Bool)
    : codeWrite op rd a b c = archWrite op rd a b c := by
  cases op <;> first | rfl | contradiction

/-- A state after some write, up to its CPSR, meets the specification exactly when its
registers read as after the architecture's write.
-/
theorem writesResult_iff {p q : ArmCore} {write : Option (BitVec 8 × BitVec 32)}
    (changed : FlagsOnly (applyWrite p write) q) (op : Opcode) {rd : BitVec 8}
    (isRegister : rd.toNat < 16) (a b : BitVec 32)
    : WritesResult p op rd a b (0, q)
      ↔ ∀ reg,
          readRegister (applyWrite p write).reg reg
            = readRegister (applyWrite p (archWrite op rd a b (carryFlag p))).reg reg := by
  obtain ⟨psr, rfl⟩ := changed
  have kept : (applyWrite p write).mem = p.mem
      ∧ armReadSpsr (applyWrite p write) = armReadSpsr p := by
    cases write with
    | none => exact ⟨rfl, rfl⟩
    | some write => exact ⟨rfl, armReadSpsr_armWriteRegister p _ _⟩
  constructor
  · rintro ⟨-, written, others, -, -⟩ reg
    simp only [armWriteCpsr_reg, readRegister_writeCpsr] at written others
    rw [archWrite]
    split
    · next writes =>
        rw [applyWrite, armWriteRegister_reg, readRegister_writeRegister]
        split
        · next same => rw [← same.1, written writes]
        · next other =>
            by_cases inside : reg.toNat < 16
            · exact others reg fun _ same => other ⟨same.symm, inside⟩
            · simp only [readRegister, inside, dif_neg, not_false_eq_true]
    · next writes => exact others reg fun h => absurd h writes
  · intro same
    rw [archWrite] at same
    refine ⟨rfl, fun writes => ?_, fun reg other => ?_, ?_, kept.1⟩
    · rw [armWriteCpsr_reg, readRegister_writeCpsr, same rd, if_pos writes, applyWrite,
        armWriteRegister_reg, readRegister_writeRegister, if_pos ⟨rfl, isRegister⟩]
    · rw [armWriteCpsr_reg, readRegister_writeCpsr, same reg]
      split
      · next writes =>
          rw [applyWrite, armWriteRegister_reg, readRegister_writeRegister,
            if_neg fun h => other writes h.1.symm]
      · rfl
    · rw [armReadSpsr_armWriteCpsr, kept.2]

/-- Two single writes leave the same registers when they are the same write, or when each
register already held what is written to it.
-/
theorem sameRegisters_iff (p : ArmCore) (first second : BitVec 8) (value value' : BitVec 32)
    (isRegister : second.toNat < 16)
    : (∀ reg,
        readRegister (armWriteRegister p first value).reg reg
          = readRegister (armWriteRegister p second value').reg reg)
      ↔ if first = second then value = value'
        else
          readRegister p.reg second = value'
          ∧ (first.toNat < 16 → readRegister p.reg first = value) := by
  simp only [armWriteRegister_reg, readRegister_writeRegister]
  split
  · next equal =>
      subst equal
      constructor
      · intro same
        simpa only [isRegister, and_self, if_true] using same first
      · rintro rfl reg
        rfl
  · next different =>
      constructor
      · intro same
        have atSecond := same second
        have atFirst := same first
        simp only [different, Ne.symm different, isRegister, false_and, and_true, if_false,
          if_true, true_and] at atSecond atFirst
        refine ⟨atSecond, fun inside => ?_⟩
        rw [if_pos inside] at atFirst
        exact atFirst.symm
      · rintro ⟨atSecond, atFirst⟩ reg
        by_cases isFirst : first = reg
        · subst isFirst
          simp only [Ne.symm different, true_and, false_and, if_false]
          split
          · next inside => exact (atFirst inside).symm
          · rfl
        · by_cases isSecond : second = reg
          · subst isSecond
            simp only [isFirst, false_and, if_false, isRegister, and_self, if_true, atSecond]
          · simp only [isFirst, isSecond, false_and, if_false]

/-- The states and operands on which the exchanged operands of RSB and the shifted arguments
of RSC make no difference.
-/
def ArgumentOrderHarmless (p : ArmCore) (op : Opcode) (rd : BitVec 8) (a b : BitVec 32)
    : Prop :=
  let borrow := borrowIn (carryFlag p)
  match op with
  | RSB => a = b ∨ a = b + 0x80000000
  | RSC =>
      if a.setWidth 8 = rd then a = rd.setWidth 32
      else
        readRegister p.reg rd = b - a - borrow
        ∧ ((a.setWidth 8).toNat < 16
          → readRegister p.reg (a.setWidth 8) = b - rd.setWidth 32 - borrow)
  | _ => True

/-- A data-processing word that passes its condition runs the `switch` on its opcode. -/
theorem armDataProcessingShift_eq {host : Host} {p : ArmCore} {ins a b : BitVec 32}
    (passes : conditionPassed (armReadCpsr p) ins)
    (operand : decodeOperand host p ins = (0, a, b))
    : armDataProcessingShift host p ins
      = executeOpcode p (decode ins).code (dpRd ins) a b ((getBit ins 20).setWidth 8)
          ((getBit (armReadCpsr p) 29).setWidth 8)
          ((getBit (armReadCpsr p) 28).setWidth 8) := by
  have accepted : ¬ ((0 : Int) = -1) := by decide
  simp only [armDataProcessingShift, passes, if_true, operand, accepted, if_false,
    opcodeField_eq, dpRd]

/-- A data-processing instruction computes its result and keeps its frame for every opcode
but RSB and RSC, and for these two exactly when their argument order makes no difference.
Witness: the opcode's single register write, compared with the architecture's.
-/
theorem armDataProcessingShift_writesResult_iff (host : Host) (p : ArmCore)
    (ins a b : BitVec 32) (passes : conditionPassed (armReadCpsr p) ins)
    (operand : decodeOperand host p ins = (0, a, b))
    : WritesResult p (decode ins) (dpRd ins) a b (armDataProcessingShift host p ins)
      ↔ ArgumentOrderHarmless p (decode ins) (dpRd ins) a b := by
  obtain ⟨q, run, changed⟩ := executeOpcode_eq p (decode ins) (dpRd ins) a b
    ((getBit ins 20).setWidth 8) ((getBit (armReadCpsr p) 28).setWidth 8)
  rw [armDataProcessingShift_eq passes operand, run,
    writesResult_iff changed (decode ins) (dpRd_lt ins)]
  by_cases rsb : decode ins = RSB
  · rw [rsb]
    refine (sameRegisters_iff p (dpRd ins) (dpRd ins) (a - b) (b - a) (dpRd_lt ins)).trans ?_
    simp only [if_true, ArgumentOrderHarmless]
    bv_omega
  by_cases rsc : decode ins = RSC
  · rw [rsc]
    refine (sameRegisters_iff p (a.setWidth 8) (dpRd ins) _ (result RSC a b (carryFlag p))
      (dpRd_lt ins)).trans ?_
    simp only [ArgumentOrderHarmless, result]
    split
    · generalize borrowIn (carryFlag p) = borrow, (dpRd ins).setWidth 32 = number
      bv_omega
    · rfl
  · rw [codeWrite_eq_archWrite rsb rsc]
    simp only [true_iff, implies_true]
    unfold ArgumentOrderHarmless
    split
    · contradiction
    · contradiction
    · trivial

/-- A fresh processor without memory whose r2 and r3 hold two values. -/
def twoOperands (first second : BitVec 32) : ArmCore :=
  armWriteRegister (armWriteRegister (armCreate (memoryCreate 0 0 fun _ => 0)) 2 first) 3 second

/-- RSB r1, r2, r3 on equal operands: both orders of the difference give 0. -/
theorem rsb_equalOperands
    : WritesResult (twoOperands 5 5) (decode 0xE0621003) (dpRd 0xE0621003) 5 5
        (armDataProcessingShift (.plain .little) (twoOperands 5 5) 0xE0621003) :=
  (armDataProcessingShift_writesResult_iff (.plain .little) (twoOperands 5 5) 0xE0621003 5 5
    (by decide +kernel) (by decide +kernel)).mpr (Or.inl rfl)

/-- RSB r1, r2, r3 with 5 in r2 and 7 in r3 writes 5 - 7. -/
theorem rsb_exchangedOperands
    : conditionPassed (armReadCpsr (twoOperands 5 7)) 0xE0621003
      ∧ decodeOperand (.plain .little) (twoOperands 5 7) 0xE0621003 = (0, 5, 7)
      ∧ ¬ WritesResult (twoOperands 5 7) (decode 0xE0621003) (dpRd 0xE0621003) 5 7
          (armDataProcessingShift (.plain .little) (twoOperands 5 7) 0xE0621003) := by
  refine ⟨by decide +kernel, by decide +kernel, fun right => ?_⟩
  have written := right.written rfl
  revert written
  decide +kernel

end Armator
