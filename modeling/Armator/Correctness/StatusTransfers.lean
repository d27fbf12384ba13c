import Armator.Architecture.StatusTransfer
import Armator.Simulator.DataProcessing

/-! MSR with an immediate operand never writes: the code looks for its encoding in two fields that
overlap, and asks for different bits there.
-/

namespace Armator

open PsrMask

/-- No word passes the encoding test. Witness: bit 6 of the word, which the first field has to have
set and the second one clear.
-/
theorem msrEncoding_absurd (ins : BitVec 32)
    : ¬ (getBits ins 23 5 = 0b00110 ∧ getBits ins 20 2 = 0b10) := by
  rintro ⟨first, second⟩
  have set := congrArg (fun x => x.getLsbD 1) first
  have clear := congrArg (fun x => x.getLsbD 4) second
  rw [getBits_eq] at set clear
  simp only [BitVec.getLsbD_setWidth, BitVec.getLsbD_extractLsb'] at set clear
  simp at set clear
  exact Bool.false_ne_true (clear.symm.trans set)

/-- Every word is refused, and nothing changes. -/
theorem armDataProcessingImmediateMsr_eq (host : Host) (unset : UnsetMasks) (p : ArmCore)
    (ins : BitVec 32)
    : armDataProcessingImmediateMsr host unset p ins = (ArmException.UNDEFINED_INSTRUCTION, p) := by
  rw [armDataProcessingImmediateMsr]
  split
  · exact if_neg (msrEncoding_absurd ins)
  · rfl

/-- The code does what MSR does exactly on the words that are to be refused, whatever the other bits
of the word are.
-/
theorem armDataProcessingImmediateMsr_exact_iff (host : Host) (unset : UnsetMasks) (p : ArmCore)
    (ins : BitVec 32)
    : armDataProcessingImmediateMsr host unset p ins = msr p ins (applyRotationImm host ins)
      ↔ MsrRefused p ins (applyRotationImm host ins) := by
  rw [armDataProcessingImmediateMsr_eq, msr]
  by_cases refused : MsrRefused p ins (applyRotationImm host ins)
  · rw [if_pos refused]
    exact iff_of_true rfl refused
  · rw [if_neg refused]
    refine iff_of_false (fun same => ?_) refused
    have different : ArmException.UNDEFINED_INSTRUCTION ≠ 0 := by decide
    split at same
    · exact different (Prod.mk.inj same).1
    · exact different (Prod.mk.inj same).1

/-- MSR CPSR_c, #0xF is to set the lowest four bits of the CPSR, and is refused as well. -/
theorem msr_control_dropped
    : let p := armCreate (memoryCreate 4 0 fun _ => 0)
      (0xE321F00F#32).extractLsb' 23 5 = 0b00110
      ∧ (0xE321F00F#32).extractLsb' 20 2 = 0b10
      ∧ conditionPassed (armReadCpsr p) 0xE321F00F
      ∧ applyRotationImm (.plain .little) 0xE321F00F &&& UnallocMask = 0
      ∧ (msr p 0xE321F00F 0xF).1 = 0
      ∧ armReadCpsr (msr p 0xE321F00F 0xF).2 = 0x1DF
      ∧ (armDataProcessingImmediateMsr (.plain .little) ⟨0, 0, 0, 0⟩ p 0xE321F00F).1
        = ArmException.UNDEFINED_INSTRUCTION
      ∧ armReadCpsr
          (armDataProcessingImmediateMsr (.plain .little) ⟨0, 0, 0, 0⟩ p 0xE321F00F).2
        = 0x1D3 := by
  intro p
  refine ⟨by decide, by decide, by decide +kernel, by decide +kernel, by decide +kernel,
    by decide +kernel, by decide +kernel, by decide +kernel⟩

end Armator
