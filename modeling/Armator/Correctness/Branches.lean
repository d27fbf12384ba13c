import Armator.Architecture.Branch
import Armator.Correctness.Dispatch

/-! Backward branches reach their target, and forward ones do not. -/

namespace Armator

/-- The instruction branched as the architecture says, and changed nothing else. -/
def Branched (p : ArmCore) (ins : BitVec 32) (outcome : Outcome) : Prop :=
  ∃ q,
    outcome = .returned 0 q
    ∧ fetchAddress q = branchTarget (fetchAddress p) ins
    ∧ readRegister q.reg 14 = branchLink (fetchAddress p) ins (readRegister p.reg 14)
    ∧ (∀ reg, reg < 14 → readRegister q.reg reg = readRegister p.reg reg)
    ∧ armReadCpsr q = armReadCpsr p
    ∧ armReadSpsr q = armReadSpsr p
    ∧ q.mem = p.mem

/-- The offset that `arm_branch` computes. For a clear bit 23 its mask keeps every bit. -/
def codeBranchOffset (ins : BitVec 32) : BitVec 32 :=
  (if ins.getLsbD 23 then ins ||| (BitVec.allOnes 32 <<< 23) else ins) <<< 2

theorem four_mul (x : BitVec 32) : (4 : BitVec 32) * x = x <<< 2 := by
  apply BitVec.eq_of_toNat_eq
  rw [BitVec.toNat_mul, BitVec.toNat_shiftLeft, Nat.shiftLeft_eq, Nat.mul_comm]
  rfl

/-- With bit 23 set the offset is sign-extended. Witness: bit extensionality. -/
theorem codeBranchOffset_of_set {ins : BitVec 32} (backward : ins.getLsbD 23 = true)
    : codeBranchOffset ins = 4 * (ins.extractLsb' 0 24).signExtend 32 := by
  have sign : (ins.extractLsb' 0 24).msb = true := by
    rw [BitVec.msb_eq_getLsbD_last, BitVec.getLsbD_extractLsb']
    exact backward
  rw [four_mul, codeBranchOffset, if_pos backward]
  apply BitVec.eq_of_getLsbD_eq
  intro i below
  rw [BitVec.getLsbD_shiftLeft, BitVec.getLsbD_shiftLeft, BitVec.getLsbD_or,
    BitVec.getLsbD_shiftLeft, BitVec.getLsbD_allOnes, BitVec.getLsbD_signExtend,
    BitVec.getLsbD_extractLsb', sign, Nat.zero_add]
  congr 1
  by_cases field : i - 2 < 24
  · by_cases top : i - 2 = 23
    · simp [top, backward]
    · have low : i - 2 < 23 := by omega
      simp [low, field]
      omega
  · have inside : i - 2 < 32 := by omega
    simp [field, inside]
    omega

/-- With bit 23 clear the class of the instruction shows in the offset: its bit 27 is bit 29. -/
theorem codeBranchOffset_of_clear {ins : BitVec 32} (isBranch : insClass ins = 5)
    (forward : ins.getLsbD 23 = false)
    : codeBranchOffset ins ≠ 4 * (ins.extractLsb' 0 24).signExtend 32 := by
  intro same
  have classBit : ins.getLsbD 27 = true := by
    have bit := congrArg (fun c : BitVec 8 => c.getLsbD 2) isBranch
    simp only [insClass, getBits_eq] at bit
    simpa using bit
  have sign : (ins.extractLsb' 0 24).msb = false := by
    rw [BitVec.msb_eq_getLsbD_last, BitVec.getLsbD_extractLsb']
    exact forward
  have bit := congrArg (fun x : BitVec 32 => x.getLsbD 29) same
  rw [four_mul, codeBranchOffset, forward, if_neg Bool.false_ne_true, BitVec.getLsbD_shiftLeft,
    BitVec.getLsbD_shiftLeft, BitVec.getLsbD_signExtend, classBit, sign,
    if_neg (show ¬29 - 2 < 24 by decide)] at bit
  exact absurd bit (by decide)

section Executed

variable {p : ArmCore} {ins : BitVec 32} (passes : conditionPassed (armReadCpsr p) ins)
  (aligned : (fetchAddress p).toNat % 4 = 0)

/-- The state in which `arm_branch` writes the pc. -/
def beforeBranch (p : ArmCore) (ins : BitVec 32) : ArmCore :=
  if ins.getLsbD 24 then armWriteRegister (afterFetch p) 14 (fetchAddress p + 4) else afterFetch p

include passes aligned

theorem armBranch_eq
    : armBranch (afterFetch p) ins
      = (0, armWriteRegister (beforeBranch p ins) 15
          (fetchAddress p + 8 + codeBranchOffset ins)) := by
  have passesAfter : conditionPassed (armReadCpsr (afterFetch p)) ins := by
    rwa [armReadCpsr_afterFetch]
  have links : (getBit ins 24).setWidth 8 = (1 : BitVec 8) ↔ ins.getLsbD 24 = true := by
    rw [getBit_eq]
    cases ins.getLsbD 24 <;> decide
  have sign : getBit ins 23 ≠ 0 ↔ ins.getLsbD 23 = true := getBit_ne_zero_iff ins 23
  have mask : ins &&& (~~~0#32).sshiftRight (32 - 23) = ins := by
    have ones : (~~~0#32).sshiftRight (32 - 23) = BitVec.allOnes 32 := by decide
    rw [ones, BitVec.and_allOnes]
  have pc : armReadRegister (beforeBranch p ins) 15 = fetchAddress p + 8 := by
    rw [← armReadRegister_pc_afterFetch p aligned, beforeBranch]
    split
    · have kept : readRegister (armWriteRegister (afterFetch p) 14 (fetchAddress p + 4)).reg 15
          = readRegister (afterFetch p).reg 15 := by
        rw [armWriteRegister_reg, readRegister_writeRegister, if_neg (by decide)]
      simp only [armReadRegister, kept]
    · rfl
  have link : armReadRegister (afterFetch p) 15 - 4 = fetchAddress p + 4 := by
    rw [armReadRegister_pc_afterFetch p aligned]
    bv_omega
  have state : (if (getBit ins 24).setWidth 8 = (1 : BitVec 8) then
        armWriteRegister (afterFetch p) 14 (armReadRegister (afterFetch p) 15 - 4)
      else afterFetch p) = beforeBranch p ins := by
    rw [link, beforeBranch]
    exact if_congr links rfl rfl
  simp only [armBranch, passesAfter, if_true, state, pc, sign, mask]
  rfl

/-- The pc, the link register and everything else after a branch. -/
theorem armStep_branch {host : Host} (fetched : Fetches host p ins) (isBranch : insClass ins = 5)
    : armStep host p
      = .returned 0
          (armWriteRegister (beforeBranch p ins) 15
            (fetchAddress p + 8 + codeBranchOffset ins)) := by
  have decodes := decoderOutcome_branch host (afterFetch p) isBranch
  rw [armBranch_eq passes aligned] at decodes
  exact armStep_of_returned fetched decodes

end Executed

section BeforeBranch

variable (p : ArmCore) (ins : BitVec 32)

theorem beforeBranch_mem : (beforeBranch p ins).mem = p.mem := by
  unfold beforeBranch
  split <;> rfl

theorem armReadCpsr_beforeBranch : armReadCpsr (beforeBranch p ins) = armReadCpsr p := by
  unfold beforeBranch
  split
  · rw [armReadCpsr_armWriteRegister, armReadCpsr_afterFetch]
  · exact armReadCpsr_afterFetch p

theorem armReadSpsr_beforeBranch : armReadSpsr (beforeBranch p ins) = armReadSpsr p := by
  unfold beforeBranch
  split
  · rw [armReadSpsr_armWriteRegister, armReadSpsr_afterFetch]
  · exact armReadSpsr_afterFetch p

/-- Only the link register is written, and only with bit 24. -/
theorem readRegister_beforeBranch {reg : BitVec 8} (notPc : reg ≠ 15)
    : readRegister (beforeBranch p ins).reg reg
      = if ins.getLsbD 24 = true ∧ reg = 14 then fetchAddress p + 4
        else readRegister p.reg reg := by
  unfold beforeBranch
  by_cases links : ins.getLsbD 24 = true
  · rw [if_pos links, armWriteRegister_reg, readRegister_writeRegister,
      readRegister_afterFetch p notPc]
    by_cases isLink : reg = 14
    · subst isLink
      rw [if_pos ⟨rfl, by decide⟩, if_pos ⟨links, rfl⟩]
    · rw [if_neg fun same => isLink same.1.symm, if_neg fun both => isLink both.2]
  · rw [if_neg links, readRegister_afterFetch p notPc, if_neg fun both => links both.1]

end BeforeBranch

/-- A branch is the architecture's iff bit 23 is set. Witness: the pc holds the offset of the code,
which is the architecture's for those words only; all other parts of the state are right.
-/
theorem armStep_branch_iff {host : Host} {p : ArmCore} {ins : BitVec 32}
    (fetched : Fetches host p ins) (isBranch : insClass ins = 5)
    (passes : conditionPassed (armReadCpsr p) ins)
    : Branched p ins (armStep host p) ↔ ins.getLsbD 23 = true := by
  have aligned := fetched.accessible.1.2
  let target := fetchAddress p + 8 + codeBranchOffset ins
  let q := armWriteRegister (beforeBranch p ins) 15 target
  have stepped : armStep host p = .returned 0 q := armStep_branch passes aligned fetched isBranch
  have pc : readRegister q.reg 15 = target := by
    rw [armWriteRegister_reg, readRegister_writeRegister, if_pos (by decide)]
  have next : fetchAddress q = target := by
    rw [← pc]
    refine fetchAddress_of_aligned ?_
    have words : (codeBranchOffset ins).toNat % 4 = 0 := by
      rw [codeBranchOffset, BitVec.toNat_shiftLeft, Nat.shiftLeft_eq]
      omega
    rw [pc, BitVec.toNat_add, BitVec.toNat_add]
    change (((fetchAddress p).toNat + 8) % 2 ^ 32 + (codeBranchOffset ins).toNat) % 2 ^ 32 % 4 = 0
    omega
  have register {reg : BitVec 8} (notPc : reg ≠ 15)
      : readRegister q.reg reg = readRegister (beforeBranch p ins).reg reg := by
    rw [armWriteRegister_reg, readRegister_writeRegister, if_neg fun same => notPc same.1.symm]
  rw [stepped]
  constructor
  · rintro ⟨_, ⟨rfl⟩, reached, -⟩
    by_contra forward
    rw [next, branchTarget, BitVec.add_right_inj] at reached
    exact codeBranchOffset_of_clear isBranch (Bool.eq_false_of_not_eq_true forward) reached
  · intro backward
    refine ⟨q, rfl, ?_, ?_, ?_, ?_, ?_, beforeBranch_mem p ins⟩
    · rw [next, branchTarget, ← codeBranchOffset_of_set backward]
    · rw [register (by decide), readRegister_beforeBranch p ins (by decide), branchLink]
      exact if_congr (and_iff_left rfl) rfl rfl
    · intro reg below
      have notPc : reg ≠ 15 := by bv_omega
      have notLink : reg ≠ 14 := by bv_omega
      rw [register notPc, readRegister_beforeBranch p ins notPc, if_neg fun both => notLink both.2]
    · rw [armReadCpsr_armWriteRegister, armReadCpsr_beforeBranch]
    · rw [armReadSpsr_armWriteRegister, armReadSpsr_beforeBranch]

/-- B to itself, the word 0xEAFFFFFE, is right. -/
theorem branchToSelf_branches
    : Branched (oneWord 4 0xEAFFFFFE) 0xEAFFFFFE (armStep (.plain .little) (oneWord 4 0xEAFFFFFE)) :=
  (armStep_branch_iff (fetches_oneWord _ (by decide) _) (by decide +kernel)
    (by decide +kernel)).mpr (by decide)

/-- B to the word behind the next one, 0xEA000000 at address 0, goes to 0xA8000008. -/
theorem branchForward_missesTarget
    : Fetches (.plain .little) (oneWord 4 0xEA000000) 0xEA000000
      ∧ branchTarget (fetchAddress (oneWord 4 0xEA000000)) 0xEA000000 = 8
      ∧ ∃ q,
          armStep (.plain .little) (oneWord 4 0xEA000000) = .returned 0 q
          ∧ fetchAddress q = 0xA8000008 := by
  have fetched : Fetches (.plain .little) (oneWord 4 0xEA000000) 0xEA000000 :=
    fetches_oneWord _ (by decide) _
  refine ⟨fetched, by decide +kernel, _,
    armStep_branch (by decide +kernel) fetched.accessible.1.2 fetched (by decide +kernel), ?_⟩
  decide +kernel

end Armator
