import Armator.Correctness.Dispatch

/-! Instructions whose condition fails: which decoders leave the state alone. -/

namespace Armator

/-- Between two states only the pc has moved, to the next instruction. -/
structure OnlyPcMoves (p q : ArmCore) : Prop where
  registers : ∀ reg, reg ≠ 15 → readRegister q.reg reg = readRegister p.reg reg
  cpsr : armReadCpsr q = armReadCpsr p
  spsr : armReadSpsr q = armReadSpsr p
  memory : q.mem = p.mem
  next : fetchAddress q = fetchAddress p + 4

/-- The fetch alone does just that. -/
theorem onlyPcMoves_afterFetch (p : ArmCore) (aligned : (fetchAddress p).toNat % 4 = 0)
    : OnlyPcMoves p (afterFetch p) where
  registers _ notPc := readRegister_afterFetch p notPc
  cpsr := armReadCpsr_afterFetch p
  spsr := armReadSpsr_afterFetch p
  memory := rfl
  next := fetchAddress_afterFetch p aligned

section Failed

variable (host : Host) {p : ArmCore} {ins : BitVec 32}
  (fails : conditionPassed (armReadCpsr p) ins = false)

include fails

theorem armDataProcessingShift_failed
    : armDataProcessingShift host p ins = (ArmException.UNDEFINED_INSTRUCTION, p) := by
  simp only [armDataProcessingShift, fails, Bool.false_eq_true, if_false]

/-- The base write-back of a single transfer is under the condition in both of its parts. -/
theorem armLoadStore_failed : armLoadStore host p ins = (0, p) := by
  have kept (index address : BitVec 32) : loadStoreWriteBack p ins index address = p := by
    simp only [loadStoreWriteBack, fails, Bool.false_eq_true, and_false, false_and, if_false]
  simp only [armLoadStore, kept, fails, Bool.false_eq_true, if_false, ite_self]

/-- A multiple transfer writes no base and transfers nothing; its result is another. -/
theorem armLoadStoreMultiple_failed
    : ∃ result, armLoadStoreMultiple host p ins = (result, p) := by
  have kept : (multipleAddresses p ins).2.2 = p := by
    simp only [multipleAddresses, fails, Bool.false_eq_true, false_and, if_false]
    split <;> split <;> rfl
  refine ⟨(armLoadStoreMultiple host p ins).1, Prod.ext rfl ?_⟩
  simp only [armLoadStoreMultiple, kept, fails, Bool.false_eq_true, if_false]
  split <;> rfl

theorem armBranch_failed : armBranch p ins = (0, p) := by
  simp only [armBranch, fails, Bool.false_eq_true, if_false]

/-- A halfword transfer adds its low four bits to the base all the same when it is
post-indexed.
-/
theorem armLoadStoreHalf_failed (half : getBits ins 7 4 = 0b1011)
    : armLoadStoreHalf host p ins
      = (0,
          if getBit ins 24 = 1 then p
          else
            armWriteRegister p ((getBits ins 19 16).setWidth 8)
              (armReadRegister p ((getBits ins 19 16).setWidth 8) + getBits ins 3 0)) := by
  have moved : (halfAddress p ins).2
      = if getBit ins 24 = 1 then p
        else
          armWriteRegister p ((getBits ins 19 16).setWidth 8)
            (armReadRegister p ((getBits ins 19 16).setWidth 8) + getBits ins 3 0) := by
    unfold halfAddress
    by_cases pre : getBit ins 24 = 1
    · simp only [pre, if_true, fails, Bool.false_eq_true, and_false, if_false]
    · simp only [pre, if_false, armReadCpsr_armWriteRegister, fails, Bool.false_eq_true,
        and_false]
  have cpsr : armReadCpsr (halfAddress p ins).2 = armReadCpsr p := by
    rw [moved]
    split
    · rfl
    · exact armReadCpsr_armWriteRegister _ _ _
  rw [← moved]
  simp only [armLoadStoreHalf, half, ne_eq, not_true_eq_false, if_false, cpsr, fails,
    Bool.false_eq_true, ite_self]

end Failed

/-- A post-indexed halfword word whose base update shows: the base is the pc, or the low four
bits are not 0.
-/
def MovesBase (ins : BitVec 32) : Prop :=
  IsHalfTransfer ins ∧ getBit ins 24 = 0
  ∧ (getBits ins 19 16 = 15 ∨ getBits ins 3 0 ≠ 0)

/-- The software interrupt that ends the simulation. -/
def EndsSimulation (ins : BitVec 32) : Prop :=
  insClass ins = 7 ∧ getBit ins 24 = 1 ∧ ins &&& 0xFFFFFF = 0x123456

/-- The mask on the pc takes 0 or 2 away. -/
theorem and_pcMask_cases (x : BitVec 32) : x &&& 0xFFFFFFFD = x ∨ x &&& 0xFFFFFFFD = x - 2 := by
  have bit : x &&& 2#32 = 0#32 ∨ x &&& 2#32 = 2#32 := by
    by_cases set : x.getLsbD 1 = true
    · right
      apply BitVec.eq_of_getLsbD_eq
      intro i hi
      rw [BitVec.getLsbD_and]
      interval_cases i <;> simp_all
    · left
      apply BitVec.eq_of_getLsbD_eq
      intro i hi
      rw [BitVec.getLsbD_and]
      interval_cases i <;> simp_all
  have parts : (x &&& 0xFFFFFFFD) + (x &&& 2#32) = x := by
    rw [BitVec.add_eq_or_of_and_eq_zero]
    · rw [← BitVec.and_or_distrib_left]
      exact BitVec.and_allOnes
    · apply BitVec.eq_of_getLsbD_eq
      intro i hi
      simp only [BitVec.getLsbD_and]
      interval_cases i <;> simp
  rcases bit with bit | bit <;> rw [bit] at parts <;> bv_omega

/-- After a write of the pc with a small number on top, the next fetch is not the following
instruction.
-/
theorem fetchAddress_pcWritten (p : ArmCore) (aligned : (fetchAddress p).toNat % 4 = 0)
    (number : BitVec 32) (small : number.toNat < 16)
    : fetchAddress (armWriteRegister (afterFetch p) 15
          (armReadRegister (afterFetch p) 15 + number))
        ≠ fetchAddress p + 4 := by
  rw [armReadRegister_pc_afterFetch p aligned]
  have written : readRegister (armWriteRegister (afterFetch p) 15
      (fetchAddress p + 8 + number)).reg 15 = fetchAddress p + 8 + number := by
    rw [armWriteRegister_reg, readRegister_writeRegister, if_pos (by decide)]
  have next : fetchAddress (armWriteRegister (afterFetch p) 15 (fetchAddress p + 8 + number))
      = ((fetchAddress p + 8 + number + 4) &&& 0xFFFFFFFD) - 4 := by
    simp only [fetchAddress, armReadRegister, if_true] at written ⊢
    rw [written]
  rw [next]
  rcases and_pcMask_cases (fetchAddress p + 8 + number + 4) with masked | masked <;>
    rw [masked] <;>
    bv_omega

/-- A write of a register with a small number on top leaves only the pc moved exactly when
the register is not the pc and the number is 0.
-/
theorem onlyPcMoves_baseMoved_iff (p : ArmCore) (aligned : (fetchAddress p).toNat % 4 = 0)
    (rn : BitVec 8) (isRegister : rn.toNat < 16) (number : BitVec 32)
    (small : number.toNat < 16)
    : OnlyPcMoves p
        (armWriteRegister (afterFetch p) rn (armReadRegister (afterFetch p) rn + number))
      ↔ ¬ (rn = 15 ∨ number ≠ 0) := by
  rw [not_or, ne_eq, not_not]
  constructor
  · intro moves
    have notPc : rn ≠ 15 := by
      rintro rfl
      exact fetchAddress_pcWritten p aligned number small moves.next
    have base := moves.registers rn notPc
    rw [armWriteRegister_reg, readRegister_writeRegister, if_pos ⟨rfl, isRegister⟩,
      armReadRegister_of_ne _ _ notPc, readRegister_afterFetch p notPc] at base
    exact ⟨notPc, by bv_omega⟩
  · rintro ⟨notPc, rfl⟩
    have same : armWriteRegister (afterFetch p) rn (armReadRegister (afterFetch p) rn + 0)
        = afterFetch p := by
      rw [BitVec.ofNat_eq_ofNat, BitVec.add_zero, armReadRegister_of_ne _ _ notPc]
      exact armWriteRegister_self _ _
    rw [same]
    exact onlyPcMoves_afterFetch p aligned

section Steps

variable {host : Host} {p : ArmCore} {ins : BitVec 32} (fetched : Fetches host p ins)
  (fails : conditionPassed (armReadCpsr p) ins = false)

include fetched

/-- A decoder that changes nothing makes the step a no-op. -/
theorem onlyPcMoves_of_outcome {result : Int}
    (outcome : decoderOutcome host (afterFetch p) ins = .returned result (afterFetch p))
    : ∃ q, armStep host p = .returned 0 q ∧ OnlyPcMoves p q :=
  ⟨_, armStep_of_returned fetched outcome, onlyPcMoves_afterFetch p fetched.accessible.1.2⟩

include fails in
/-- A halfword word is a no-op iff it does not move its base. -/
theorem armStep_failedHalf_iff (half : IsHalfTransfer ins)
    : (∃ q, armStep host p = .returned 0 q ∧ OnlyPcMoves p q) ↔ ¬ MovesBase ins := by
  have failsAfter : conditionPassed (armReadCpsr (afterFetch p)) ins = false := by
    rw [armReadCpsr_afterFetch, fails]
  have outcome := decoderOutcome_half host (afterFetch p) half
  rw [armLoadStoreHalf_failed host failsAfter half.2] at outcome
  rcases getBit_cases ins 24 with post | pre
  · rw [if_neg (by rw [post]; decide)] at outcome
    have base : (getBits ins 19 16).setWidth 8 = (15 : BitVec 8) ↔ getBits ins 19 16 = 15 := by
      have bound := toNat_getBits_lt ins 19 16 (by decide)
      bv_omega
    have moves := onlyPcMoves_baseMoved_iff p fetched.accessible.1.2
      ((getBits ins 19 16).setWidth 8) (toNat_registerField_lt ins 16) (getBits ins 3 0)
      (toNat_getBits_lt ins 3 0 (by decide))
    rw [armStep_of_returned fetched outcome]
    simp only [Outcome.returned.injEq, true_and, exists_eq_left', moves, base, MovesBase, half, post]
  · rw [if_pos pre] at outcome
    refine iff_of_true (onlyPcMoves_of_outcome fetched outcome) fun moves => ?_
    exact absurd (pre.symm.trans moves.2.1) (by decide)

/-- A word of class 7 is a no-op iff it does not end the simulation. -/
theorem armStep_class7_iff (class7 : insClass ins = 7)
    : (∃ q, armStep host p = .returned 0 q ∧ OnlyPcMoves p q) ↔ ¬ EndsSimulation ins := by
  have outcome := decoderOutcome_swi host (afterFetch p) class7
  by_cases ends : getBit ins 24 = 1 ∧ ins &&& 0xFFFFFF = 0x123456
  · rw [if_pos ends.1, if_pos ends.2] at outcome
    rw [armStep_of_exited fetched outcome]
    refine iff_of_false ?_ fun goesOn => goesOn ⟨class7, ends⟩
    rintro ⟨q, exits, -⟩
    exact Outcome.noConfusion exits
  · refine iff_of_true ?_ fun simulation => ends simulation.2
    by_cases bit24 : getBit ins 24 = 1
    · rw [if_pos bit24, if_neg fun number => ends ⟨bit24, number⟩] at outcome
      exact onlyPcMoves_of_outcome fetched outcome
    · rw [if_neg bit24] at outcome
      exact onlyPcMoves_of_outcome fetched outcome

end Steps

/-- A condition that fails makes the step a no-op, except for the halfword words that move
their base and for the end of the simulation. Witness: one case for each decoder.
-/
theorem armStep_failedCondition_iff (host : Host) (p : ArmCore) (ins : BitVec 32)
    (fetched : Fetches host p ins) (fails : conditionPassed (armReadCpsr p) ins = false)
    : (∃ q, armStep host p = .returned 0 q ∧ OnlyPcMoves p q)
      ↔ ¬ MovesBase ins ∧ ¬ EndsSimulation ins := by
  have failsAfter : conditionPassed (armReadCpsr (afterFetch p)) ins = false := by
    rw [armReadCpsr_afterFetch, fails]
  have idle {result : Int} (goesOn : ¬ EndsSimulation ins) (notMoved : ¬ MovesBase ins)
      (outcome : decoderOutcome host (afterFetch p) ins = .returned result (afterFetch p))
      : (∃ q, armStep host p = .returned 0 q ∧ OnlyPcMoves p q)
        ↔ ¬ MovesBase ins ∧ ¬ EndsSimulation ins :=
    iff_of_true (onlyPcMoves_of_outcome fetched outcome) ⟨notMoved, goesOn⟩
  have otherClass {c : BitVec 8} (isClass : insClass ins = c) (notSwi : c ≠ 7)
      : ¬ EndsSimulation ins :=
    fun ends => notSwi (isClass.symm.trans ends.1)
  have notMovedClass {c : BitVec 8} (isClass : insClass ins = c) (notZero : c ≠ 0)
      : ¬ MovesBase ins :=
    fun moves => notZero (isClass.symm.trans moves.1.1)
  rcases insClass_cases ins with half | data | single | class4 | class5 | class6 | class7
  · rw [armStep_failedHalf_iff fetched fails half]
    exact (and_iff_left (otherClass half.1 (by decide))).symm
  · have outcome := decoderOutcome_data host (afterFetch p) data
    rw [armDataProcessingShift_failed host failsAfter] at outcome
    refine idle ?_ (fun moves => ?_) outcome
    · rcases data with ⟨class0, -⟩ | class1
      · exact otherClass class0 (by decide)
      · exact otherClass class1 (by decide)
    · rcases data with ⟨-, other⟩ | class1
      · exact other moves.1.2
      · exact notMovedClass class1 (by decide) moves
  · have outcome := decoderOutcome_single host (afterFetch p) single
    rw [armLoadStore_failed host failsAfter] at outcome
    rcases single with isClass | isClass
    · exact idle (otherClass isClass (by decide)) (notMovedClass isClass (by decide)) outcome
    · exact idle (otherClass isClass (by decide)) (notMovedClass isClass (by decide)) outcome
  · obtain ⟨result, transferred⟩ := armLoadStoreMultiple_failed host failsAfter
    have outcome := decoderOutcome_multiple host (afterFetch p) class4
    rw [transferred] at outcome
    exact idle (otherClass class4 (by decide)) (notMovedClass class4 (by decide)) outcome
  · have outcome := decoderOutcome_branch host (afterFetch p) class5
    rw [armBranch_failed failsAfter] at outcome
    exact idle (otherClass class5 (by decide)) (notMovedClass class5 (by decide)) outcome
  · exact idle (otherClass class6 (by decide)) (notMovedClass class6 (by decide))
      (decoderOutcome_coprocessor host (afterFetch p) class6)
  · rw [armStep_class7_iff fetched class7]
    exact (and_iff_right (notMovedClass class7 (by decide))).symm

/-- MOVEQ r0, r0 with Z clear. -/
theorem moveq_failed
    : ∃ q,
        armStep (.plain .little) (oneWord 4 0x01A00000) = .returned 0 q
        ∧ OnlyPcMoves (oneWord 4 0x01A00000) q :=
  (armStep_failedCondition_iff (.plain .little) (oneWord 4 0x01A00000) 0x01A00000
    (fetches_oneWord _ (by decide) _) (by decide +kernel)).mpr
    ⟨fun moves => absurd moves.1 (by decide), fun ends => absurd ends.1 (by decide)⟩

/-- LDREQH r1, [r2], #4 with Z clear adds 4 to r2. -/
theorem ldreqh_movesBase
    : Fetches (.plain .little) (oneWord 4 0x00D210B4) 0x00D210B4
      ∧ armGetCond 0x00D210B4 = some .EQ
      ∧ conditionPassed (armReadCpsr (oneWord 4 0x00D210B4)) 0x00D210B4 = false
      ∧ ¬ ∃ q,
          armStep (.plain .little) (oneWord 4 0x00D210B4) = .returned 0 q
          ∧ OnlyPcMoves (oneWord 4 0x00D210B4) q := by
  refine ⟨fetches_oneWord _ (by decide) _, rfl, by decide +kernel, ?_⟩
  rintro ⟨q, step, moves⟩
  have base : (armStep (.plain .little) (oneWord 4 0x00D210B4)).register 2 = 4 := by
    decide +kernel
  rw [step] at base
  exact absurd ((moves.registers 2 (by decide)).symm.trans base) (by decide +kernel)

end Armator
