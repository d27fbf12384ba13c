import Armator.Correctness.DataProcessingResults
import Armator.Correctness.Dispatch
import Armator.Simulator.GdbProtocol

/-! Exception codes on their way from a decoder to gdb. -/

namespace Armator

/-- The codes with which a decoder refuses an instruction. -/
def IsRefusal (code : Int) : Prop :=
  code = ArmException.UNDEFINED_INSTRUCTION ∨ code = ArmException.SOFTWARE_INTERRUPT

/-- The words that their decoder refuses when the condition passes: the register forms of the
data-processing classes with bits 7 and 4 set, the coprocessor transfers, and in the last class
everything but the end of the simulation.
-/
def IsRefused (ins : BitVec 32) : Prop :=
  (IsDataProcessing ins ∧ getBit ins 25 = 0 ∧ getBit ins 7 = 1 ∧ getBit ins 4 = 1)
  ∨ insClass ins = 6
  ∨ (insClass ins = 7 ∧ ¬ (getBit ins 24 = 1 ∧ ins &&& 0xFFFFFF = 0x123456))

section Codes

variable (host : Host) (p : ArmCore) (ins : BitVec 32)

/-- `decode_operand` refuses the register forms with bits 7 and 4 set. -/
theorem decodeOperand_status
    : (decodeOperand host p ins).1
      = if getBit ins 25 = 0 ∧ getBit ins 7 = 1 ∧ getBit ins 4 = 1 then -1 else 0 := by
  unfold decodeOperand
  rcases getBit_cases ins 25 with bit25 | bit25 <;> rcases getBit_cases ins 7 with bit7 | bit7 <;>
    rcases getBit_cases ins 4 with bit4 | bit4 <;>
    simp only [bit25, bit7, bit4] <;>
    rfl

/-- With a passing condition a data-processing word is refused with its operand only. -/
theorem armDataProcessingShift_code (passes : conditionPassed (armReadCpsr p) ins)
    : (armDataProcessingShift host p ins).1
      = if getBit ins 25 = 0 ∧ getBit ins 7 = 1 ∧ getBit ins 4 = 1 then
          ArmException.UNDEFINED_INSTRUCTION
        else 0 := by
  have status := decodeOperand_status host p ins
  rcases operands : decodeOperand host p ins with ⟨operandStatus, val1, val2⟩
  rw [operands] at status
  by_cases refused : getBit ins 25 = 0 ∧ getBit ins 7 = 1 ∧ getBit ins 4 = 1
  · rw [if_pos refused] at status ⊢
    obtain rfl : operandStatus = -1 := status
    simp only [armDataProcessingShift, passes, if_true, operands]
  · rw [if_neg refused] at status ⊢
    obtain rfl : operandStatus = 0 := status
    obtain ⟨q, run, -⟩ := executeOpcode_eq p (Opcode.decode ins) (dpRd ins) val1 val2
      ((getBit ins 20).setWidth 8) ((getBit (armReadCpsr p) 28).setWidth 8)
    rw [armDataProcessingShift_eq passes operands, run]

theorem armLoadStore_code : (armLoadStore host p ins).1 = 0 := by
  unfold armLoadStore
  simp only
  split <;> split <;> try rfl
  all_goals split <;> rfl

theorem armLoadStoreMultiple_code
    : (armLoadStoreMultiple host p ins).1 = 0 ∨ (armLoadStoreMultiple host p ins).1 = 1 := by
  have checked (test : Prop) [Decidable test] (q : ArmCore)
      : (if test then ((1 : Int), q) else (0, q)).1 = 0
        ∨ (if test then ((1 : Int), q) else (0, q)).1 = 1 := by
    split
    · exact .inr rfl
    · exact .inl rfl
  exact checked _ _

theorem armLoadStoreHalf_code
    : (armLoadStoreHalf host p ins).1 = 0 ∨ (armLoadStoreHalf host p ins).1 = 1 := by
  unfold armLoadStoreHalf
  split
  · exact .inr rfl
  · left
    simp only
    split <;> split <;> rfl

theorem armBranch_code : (armBranch p ins).1 = 0 := by
  unfold armBranch
  simp only
  split <;> rfl

end Codes

/-- With a passing condition the decoder refuses exactly the words of `IsRefused`.
Witness: the code of each decoder.
-/
theorem decoderOutcome_refusal_iff (host : Host) (p : ArmCore) (ins : BitVec 32)
    (passes : conditionPassed (armReadCpsr p) ins)
    : (∃ code q, decoderOutcome host p ins = .returned code q ∧ IsRefusal code)
      ↔ IsRefused ins := by
  have accepts {result : Int × ArmCore} (code : result.1 = 0 ∨ result.1 = 1)
      : ¬ ∃ code q, Outcome.ofReturn result = .returned code q ∧ IsRefusal code := by
    rintro ⟨code', q, same, refusal⟩
    obtain ⟨rfl, -⟩ := Outcome.returned.inj same
    rcases refusal with refusal | refusal <;> rcases code with code | code <;>
      exact absurd (code.symm.trans refusal) (by decide)
  have otherClass {c : BitVec 8} (isClass : insClass ins = c) (notData : c ≠ 0 ∧ c ≠ 1)
      (notLast : c ≠ 6 ∧ c ≠ 7)
      : ¬ IsRefused ins := by
    subst isClass
    rintro (⟨data, -⟩ | class6 | ⟨class7, -⟩)
    · exact (notLow rfl notData.1 notData.2).2 data
    · exact notLast.1 class6
    · exact notLast.2 class7
  rcases insClass_cases ins with half | data | single | class4 | class5 | class6 | class7
  · rw [decoderOutcome_half host p half]
    refine iff_of_false (accepts (armLoadStoreHalf_code host p ins)) ?_
    rintro (⟨⟨-, other⟩ | class1, -⟩ | class6 | ⟨class7, -⟩)
    · exact other half.2
    · exact absurd (half.1.symm.trans class1) (by decide)
    · exact absurd (half.1.symm.trans class6) (by decide)
    · exact absurd (half.1.symm.trans class7) (by decide)
  · rw [decoderOutcome_data host p data]
    have code := armDataProcessingShift_code host p ins passes
    by_cases refused : getBit ins 25 = 0 ∧ getBit ins 7 = 1 ∧ getBit ins 4 = 1
    · rw [if_pos refused] at code
      exact iff_of_true ⟨_, _, rfl, .inl code⟩ (.inl ⟨data, refused⟩)
    · rw [if_neg refused] at code
      refine iff_of_false (accepts (.inl code)) ?_
      rintro (⟨-, operand⟩ | class6 | ⟨class7, -⟩)
      · exact refused operand
      · exact (notLow class6 (by decide) (by decide)).2 data
      · exact (notLow class7 (by decide) (by decide)).2 data
  · rw [decoderOutcome_single host p single]
    refine iff_of_false (accepts (.inl (armLoadStore_code host p ins))) ?_
    rcases single with isClass | isClass <;> exact otherClass isClass (by decide) (by decide)
  · rw [decoderOutcome_multiple host p class4]
    exact iff_of_false (accepts (armLoadStoreMultiple_code host p ins))
      (otherClass class4 (by decide) (by decide))
  · rw [decoderOutcome_branch host p class5]
    exact iff_of_false (accepts (.inl (armBranch_code p ins)))
      (otherClass class5 (by decide) (by decide))
  · rw [decoderOutcome_coprocessor host p class6]
    exact iff_of_true ⟨_, _, rfl, .inl rfl⟩ (.inr (.inl class6))
  · rw [decoderOutcome_swi host p class7]
    by_cases ends : getBit ins 24 = 1 ∧ ins &&& 0xFFFFFF = 0x123456
    · rw [if_pos ends.1, if_pos ends.2]
      refine iff_of_false ?_ ?_
      · rintro ⟨code, q, exits, -⟩
        exact Outcome.noConfusion exits
      · rintro (⟨data, -⟩ | class6 | ⟨-, goesOn⟩)
        · exact (notLow class7 (by decide) (by decide)).2 data
        · exact absurd (class7.symm.trans class6) (by decide)
        · exact goesOn ends
    · refine iff_of_true ?_ (.inr (.inr ⟨class7, ends⟩))
      split
      · next bit24 =>
          rw [if_neg fun number => ends ⟨bit24, number⟩]
          exact ⟨_, _, rfl, .inr rfl⟩
      · exact ⟨_, _, rfl, .inl rfl⟩

/-- The exception a decoder raises reaches the caller of `arm_step`, `arm_exception` and the
stop reason of gdb; a decoder that returns 0 raises none.
-/
structure KeepsExceptions (host : Host) (p : ArmCore) (ins : BitVec 32) : Prop where
  raised :
    ∀ code q,
      decoderOutcome host (afterFetch p) ins = .returned code q
      → IsRefusal code
      → armStep host p = .returned code (armException q (BitVec.ofInt 8 code))
        ∧ ∀ gdb : Gdb.GdbProtocolData,
            gdb.arm = p
            → ∃ gdb' data,
                Gdb.step host gdb = .replied gdb' data ∧ gdb'.targetException = code
  quiet :
    ∀ q,
      decoderOutcome host (afterFetch p) ins = .returned 0 q
      → ∃ q', armStep host p = .returned 0 q'

/-- Exceptions are kept exactly for the words that no decoder refuses. Witness: a step
returns 0 whatever its decoder returns.
-/
theorem armStep_keepsExceptions_iff (host : Host) (p : ArmCore) (ins : BitVec 32)
    (fetched : Fetches host p ins) (passes : conditionPassed (armReadCpsr p) ins)
    : KeepsExceptions host p ins ↔ ¬ IsRefused ins := by
  have passesAfter : conditionPassed (armReadCpsr (afterFetch p)) ins := by
    rwa [armReadCpsr_afterFetch]
  rw [← decoderOutcome_refusal_iff host (afterFetch p) ins passesAfter]
  constructor
  · rintro keeps ⟨code, q, decodes, refusal⟩
    have step := (keeps.raised code q decodes refusal).1
    rw [armStep_of_returned fetched decodes] at step
    obtain ⟨dropped, -⟩ := Outcome.returned.inj step
    rcases refusal with refusal | refusal <;> exact absurd (dropped.trans refusal) (by decide)
  · intro accepted
    refine ⟨fun code q decodes refusal => ?_, fun q decodes => ?_⟩
    · exact absurd ⟨code, q, decodes, refusal⟩ accepted
    · exact ⟨q, armStep_of_returned fetched decodes⟩

/-- MOV r0, r0 raises nothing. -/
theorem mov_keepsExceptions
    : KeepsExceptions (.plain .little) (oneWord 4 0xE1A00000) 0xE1A00000 := by
  refine (armStep_keepsExceptions_iff (.plain .little) (oneWord 4 0xE1A00000) 0xE1A00000
    (fetches_oneWord _ (by decide) _) (by decide +kernel)).mpr ?_
  rintro (⟨-, -, bit7, -⟩ | class6 | ⟨class7, -⟩)
  · exact absurd bit7 (by decide)
  · exact absurd class6 (by decide)
  · exact absurd class7 (by decide)

/-- SWI 0 is a software interrupt for its decoder, and nothing for the caller of
`arm_step`.
-/
theorem swi_isDropped
    : Fetches (.plain .little) (oneWord 4 0xEF000000) 0xEF000000
      ∧ conditionPassed (armReadCpsr (oneWord 4 0xEF000000)) 0xEF000000
      ∧ ¬ KeepsExceptions (.plain .little) (oneWord 4 0xEF000000) 0xEF000000 := by
  have fetched := fetches_oneWord (.plain .little) (show 0 < 4 by decide) 0xEF000000
  refine ⟨fetched, by decide +kernel, fun keeps => ?_⟩
  have decodes : decoderOutcome (.plain .little) (afterFetch (oneWord 4 0xEF000000)) 0xEF000000
      = .returned ArmException.SOFTWARE_INTERRUPT (afterFetch (oneWord 4 0xEF000000)) :=
    decoderOutcome_swi _ _ (by decide)
  have step := (keeps.raised _ _ decodes (.inr rfl)).1
  rw [armStep_of_returned fetched decodes] at step
  exact absurd (Outcome.returned.inj step).1 (by decide)

/-- A step reports a prefetch abort, to gdb as S10, and leaves the general registers, the CPSR
and the memory alone.
-/
def ReportsPrefetchAbort (host : Host) (p : ArmCore) : Prop :=
  ∃ q,
    armStep host p = .returned ArmException.PREFETCH_ABORT q
    ∧ Gdb.step host { arm := p, targetException := 0 }
      = .replied { arm := q, targetException := ArmException.PREFETCH_ABORT } "S10"
    ∧ (∀ reg, reg.toNat < 15 → readRegister q.reg reg = readRegister p.reg reg)
    ∧ armReadCpsr q = armReadCpsr p
    ∧ q.mem = p.mem

/-- No failing fetch is reported as one: the step returns the number of a reset. -/
theorem armStep_failedFetch_isReset (host : Host) (p : ArmCore)
    (fails : ¬ p.mem.Accessible 4 (fetchAddress p))
    : ¬ ReportsPrefetchAbort host p := by
  rintro ⟨q, aborts, -⟩
  rw [armStep_of_failedFetch host fails] at aborts
  exact absurd (Outcome.returned.inj aborts).1 (by decide)

/-- An odd pc. -/
theorem oddPc_isReset
    : ¬ ReportsPrefetchAbort (.plain .little) (armWriteRegister (oneWord 4 0xE1A00000) 15 1) :=
  armStep_failedFetch_isReset (.plain .little) (armWriteRegister (oneWord 4 0xE1A00000) 15 1)
    (by decide +kernel)

/-- A pc behind the memory: the step returns 1 and sets the CPSR of a reset. -/
theorem pcOutside_isReset
    : let p := armWriteCpsr (armWriteRegister (oneWord 4 0xE1A00000) 15 4) 0x10
      ¬ p.mem.Accessible 4 (fetchAddress p)
      ∧ (∃ q, armStep (.plain .little) p = .returned 1 q ∧ armReadCpsr q = 0x1D3)
      ∧ ¬ ReportsPrefetchAbort (.plain .little) p := by
  intro p
  have fails : ¬ p.mem.Accessible 4 (fetchAddress p) := by decide +kernel
  have step := armStep_of_failedFetch (.plain .little) fails
  refine ⟨fails, ⟨_, step, by decide +kernel⟩, ?_⟩
  rintro ⟨q, aborts, -⟩
  rw [step] at aborts
  exact absurd (Outcome.returned.inj aborts).1 (by decide)

end Armator
