import Armator.Architecture.SingleTransfer
import Armator.Correctness.Runs
import Armator.Correctness.ScaledOffsets

/-! Load and store of a word or byte do what the architecture says. -/

namespace Armator

/-- After the fetch every register reads as the instruction's operand. -/
theorem armReadRegister_afterFetch (p : ArmCore) (aligned : (fetchAddress p).toNat % 4 = 0)
    (reg : BitVec 8)
    : armReadRegister (afterFetch p) reg = operandRegister p (fetchAddress p) reg := by
  unfold operandRegister
  split
  · next isPc => rw [isPc, armReadRegister_pc_afterFetch p aligned]
  · next notPc => rw [armReadRegister_of_ne _ _ notPc, readRegister_afterFetch p notPc]

section Transfer

variable {host : Host} {p : ArmCore} {ins : BitVec 32}
  (passes : conditionPassed (armReadCpsr p) ins)
  (aligned : (fetchAddress p).toNat % 4 = 0)

include passes aligned

/-- The index is the offset of the instruction, in the immediate form and for Rm LSL imm5. -/
theorem loadStoreIndex_eq
    (form : ins.getLsbD 25 = true → ins.extractLsb' 4 3 = 0)
    : loadStoreIndex host (afterFetch p) ins = transferOffset p (fetchAddress p) ins := by
  have passesAfter : conditionPassed (armReadCpsr (afterFetch p)) ins := by
    rwa [armReadCpsr_afterFetch]
  cases indexed : ins.getLsbD 25 with
  | false =>
      have always : getBit ins 24 = 1
          ∨ (getBit ins 24 = 0 ∧ conditionPassed (armReadCpsr (afterFetch p)) ins) :=
        (getBit_cases ins 24).symm.imp_right fun clear => ⟨clear, passesAfter⟩
      have immediate : getBit ins 25 = 0 := (getBit_eq_zero_iff ins 25).mpr indexed
      simp only [loadStoreIndex, if_pos always, if_pos immediate, transferOffset, indexed]
      exact getBits_eq ins 11 0
  | true =>
      have clear {i : Nat} (inside : i < 3) : ins.getLsbD (4 + i) = false := by
        have bit : (ins.extractLsb' 4 3).getLsbD i = ins.getLsbD (4 + i) := by
          rw [BitVec.getLsbD_extractLsb', decide_eq_true inside, Bool.true_and]
        rw [← bit, form indexed]
        exact BitVec.getLsbD_zero
      have kind : ShiftKind.decode ins = .LSL := by
        rw [ShiftKind.decode, clear (by decide : 2 < 3), clear (by decide : 1 < 3)]
      rw [loadStoreIndex_scaled host indexed passesAfter, kind,
        armReadRegister_afterFetch p aligned, transferOffset, if_pos indexed]
      rfl

omit passes in
/-- The transfer address, given the offset. -/
theorem loadStoreAddress_eq
    : loadStoreAddress (afterFetch p) ins (transferOffset p (fetchAddress p) ins)
      = transferAddress p (fetchAddress p) ins := by
  have up : getBit ins 23 = 1 ↔ ins.getLsbD 23 = true := getBit_eq_one_iff ins 23
  have indexes : getBit ins 24 = 1 ↔ ins.getLsbD 24 = true := getBit_eq_one_iff ins 24
  have rn : (getBits ins 19 16).setWidth 8 = registerField ins 16 := getBits_registerField ins 16
  simp only [loadStoreAddress, up, indexes, rn, armReadRegister_afterFetch p aligned,
    transferAddress, indexedBase]
  cases ins.getLsbD 24 <;> cases ins.getLsbD 23 <;> rfl

/-- In user mode the base update is the architecture's, through either path. -/
theorem loadStoreWriteBack_eq (usr : p.reg.mode = Mode.USR)
    : loadStoreWriteBack (afterFetch p) ins (transferOffset p (fetchAddress p) ins)
        (transferAddress p (fetchAddress p) ins)
      = beforeTransfer p (fetchAddress p) ins := by
  have down : getBit ins 23 ≠ 0 ↔ ins.getLsbD 23 = true := getBit_ne_zero_iff ins 23
  have rn : (getBits ins 19 16).setWidth 8 = registerField ins 16 := getBits_registerField ins 16
  have plain (value : BitVec 32)
      : armWriteUsrRegister (afterFetch p) (registerField ins 16) value
        = armWriteRegister (afterFetch p) (registerField ins 16) value := by
    have mode := (SameMachine.afterFetch p).mode.trans usr
    rw [armWriteUsrRegister, writeUsrRegister_of_usr _ _ _ mode]
    rfl
  have passesAfter : conditionPassed (armReadCpsr (afterFetch p)) ins := by
    rwa [armReadCpsr_afterFetch]
  have post : getBit ins 24 = 0 ↔ ins.getLsbD 24 = false := getBit_eq_zero_iff ins 24
  have pre : getBit ins 24 = 1 ↔ ins.getLsbD 24 = true := getBit_eq_one_iff ins 24
  have write : getBit ins 21 = 1 ↔ ins.getLsbD 21 = true := getBit_eq_one_iff ins 21
  have next : armWriteRegister { p with cycleCount := p.cycleCount + 1 } 15 (fetchAddress p + 4)
      = afterFetch p := rfl
  simp only [loadStoreWriteBack, post, pre, write, down, rn, armReadRegister_afterFetch p aligned,
    plain, beforeTransfer, next, UpdatesBase, transferAddress]
  cases ins.getLsbD 24 with
  | false =>
      simp only [Bool.false_eq_true, false_and, if_false, passesAfter, and_self, if_true, ite_self,
        true_or]
      rfl
  | true =>
      simp only [reduceCtorEq, false_and, if_false, passesAfter, true_and, if_true, plain,
        false_or]

end Transfer

/-- A successful load reads the word or the zero-extended byte. -/
theorem loadedValue_eq {host : Host} (little : host.order = .little) (p : ArmCore)
    {ins address : BitVec 32}
    (accessible : p.mem.Accessible (if ins.getLsbD 22 then 1 else 4) address)
    : loadedValue host p ins address = p.mem.loaded (ins.getLsbD 22) address := by
  have isByte : getBit ins 22 = 1 ↔ ins.getLsbD 22 = true := getBit_eq_one_iff ins 22
  simp only [loadedValue, isByte, Memory.loaded, armReadByte, armReadWord, memoryReadByte_eq,
    memoryReadWord_eq]
  cases width : ins.getLsbD 22 with
  | true =>
      rw [width, if_pos rfl] at accessible
      rw [if_pos rfl, if_pos rfl, if_pos accessible]
      exact Host.updateFirst_zero little (by decide) _
  | false =>
      rw [width, if_neg Bool.false_ne_true] at accessible
      rw [if_neg Bool.false_ne_true, if_neg Bool.false_ne_true, if_pos accessible]
      exact congrArg (fun order => ByteStore.load order 32 p.mem.data _)
        (Memory.order_eq_of_little little p.mem)

/-- A successful store writes the word or its low byte. -/
theorem armWrite_eq {host : Host} (little : host.order = .little) (p : ArmCore)
    {ins address : BitVec 32} (value : BitVec 32)
    (accessible : p.mem.Accessible (if ins.getLsbD 22 then 1 else 4) address)
    : (if getBit ins 22 = 1 then
        (armWriteByte p address ((getBits value 7 0).setWidth 8)).2
      else (armWriteWord host p address value).2)
      = { p with mem := p.mem.stored (ins.getLsbD 22) address value } := by
  have isByte : getBit ins 22 = 1 ↔ ins.getLsbD 22 = true := getBit_eq_one_iff ins 22
  simp only [isByte, Memory.stored, armWriteByte, armWriteWord, memoryWriteByte_eq,
    memoryWriteWord_eq]
  cases width : ins.getLsbD 22 with
  | true =>
      rw [width, if_pos rfl] at accessible
      have low : ((getBits value 7 0).setWidth 8 : BitVec 8) = value.setWidth 8 :=
        getBits_low value (by decide) (by decide)
      rw [if_pos rfl, if_pos rfl, if_pos accessible, low]
      rfl
  | false =>
      rw [width, if_neg Bool.false_ne_true] at accessible
      rw [if_neg Bool.false_ne_true, if_neg Bool.false_ne_true, if_pos accessible,
        Memory.order_eq_of_little little]
      rfl

section BeforeTransfer

variable (p : ArmCore) (ins : BitVec 32)

theorem beforeTransfer_mem (place : BitVec 32) : (beforeTransfer p place ins).mem = p.mem := by
  unfold beforeTransfer
  simp only
  split <;> rfl

theorem armReadCpsr_beforeTransfer (place : BitVec 32)
    : armReadCpsr (beforeTransfer p place ins) = armReadCpsr p := by
  unfold beforeTransfer
  simp only
  split <;> simp only [armReadCpsr_armWriteRegister] <;> rfl

/-- The base update does not reach the pc, so r15 still reads as the address plus 8. -/
theorem armReadRegister_beforeTransfer (aligned : (fetchAddress p).toNat % 4 = 0)
    (base : UpdatesBase ins → registerField ins 16 ≠ 15) (reg : BitVec 8)
    : armReadRegister (beforeTransfer p (fetchAddress p) ins) reg
      = operandRegister (beforeTransfer p (fetchAddress p) ins) (fetchAddress p) reg := by
  unfold operandRegister
  split
  · next isPc =>
      have stored : readRegister (beforeTransfer p (fetchAddress p) ins).reg 15
          = readRegister (afterFetch p).reg 15 := by
        unfold beforeTransfer
        simp only
        split
        · next updates =>
            rw [armWriteRegister_reg, readRegister_writeRegister,
              if_neg fun same => base updates same.1]
            rfl
        · rfl
      rw [isPc, ← armReadRegister_pc_afterFetch p aligned]
      simp only [armReadRegister, stored]
  · next notPc => exact armReadRegister_of_ne _ _ notPc

end BeforeTransfer

/-- The source's masks on the pc and the T bit are the loaded register's. -/
theorem loadRegister_eq (q : ArmCore) (rd : BitVec 8) (value : BitVec 32)
    : (if rd = 15 then
        let q := armWriteRegister q 15 (value &&& 0xFFFFFFFE)
        ((0 : Int), armWriteCpsr q
          (if getBit value 0 ≠ 0 then setBit (armReadCpsr q) CpsrBit.T
          else clrBit (armReadCpsr q) CpsrBit.T))
      else (0, armWriteRegister q rd value))
      = (0, loadRegister q rd value) := by
  have bit : getBit value 0 ≠ 0 ↔ value.getLsbD 0 = true := getBit_ne_zero_iff value 0
  unfold loadRegister
  split
  · simp only [bit, setBit_eq, clrBit_eq, armReadCpsr_armWriteRegister]
    cases value.getLsbD 0 <;> rfl
  · rfl

/-- A load or store of a word or byte whose access succeeds leaves the architecture's state.
Witness: index, address, base update and transfer, one after the other; the mode of a reachable
processor is the user mode, in which the base update is not dropped.
-/
theorem armStep_singleTransfer (host : Host) (p : ArmCore) (ins : BitVec 32)
    (little : host.order = .little) (reached : (simulator host).Reachable p)
    (fetched : Fetches host p ins) (passes : conditionPassed (armReadCpsr p) ins)
    (single : insClass ins = 2 ∨ insClass ins = 3)
    (form : ins.getLsbD 25 = true → ins.extractLsb' 4 3 = 0)
    (base : UpdatesBase ins → registerField ins 16 ≠ 15)
    (accessible
      : p.mem.Accessible (if ins.getLsbD 22 then 1 else 4)
          (transferAddress p (fetchAddress p) ins))
    : armStep host p = .returned 0 (singleTransfer p (fetchAddress p) ins) := by
  have aligned := fetched.accessible.1.2
  have usr := mode_of_reachable reached
  have passesBefore
      : conditionPassed (armReadCpsr (beforeTransfer p (fetchAddress p) ins)) ins := by
    rwa [armReadCpsr_beforeTransfer]
  have transferred : armLoadStore host (afterFetch p) ins
      = (0, singleTransfer p (fetchAddress p) ins) := by
    have isLoad : getBit ins 20 = 1 ↔ ins.getLsbD 20 = true := getBit_eq_one_iff ins 20
    have rd : (getBits ins 15 12).setWidth 8 = registerField ins 12 :=
      getBits_registerField ins 12
    simp only [armLoadStore, loadStoreIndex_eq passes aligned form, loadStoreAddress_eq aligned,
      loadStoreWriteBack_eq passes aligned usr, passesBefore, if_true, isLoad, rd]
    have accessibleBefore := accessible
    rw [← beforeTransfer_mem p ins (fetchAddress p)] at accessibleBefore
    unfold singleTransfer
    cases ins.getLsbD 20 with
    | true =>
        rw [if_pos rfl, loadedValue_eq little _ accessibleBefore, beforeTransfer_mem]
        exact loadRegister_eq _ _ _
    | false =>
        have write := armWrite_eq little (beforeTransfer p (fetchAddress p) ins)
          (armReadRegister (beforeTransfer p (fetchAddress p) ins) (registerField ins 12))
          accessibleBefore
        rw [beforeTransfer_mem, armReadRegister_beforeTransfer p ins aligned base] at write
        rw [if_neg Bool.false_ne_true, ← apply_ite (Prod.mk (0 : Int)),
          armReadRegister_beforeTransfer p ins aligned base]
        exact congrArg (Prod.mk 0) write
  have decodes := decoderOutcome_single host (afterFetch p) single
  rw [transferred] at decodes
  exact armStep_of_returned fetched decodes

/-- LDRB r0, [r1, #3]! loads its own highest byte and moves r1. -/
theorem ldrb_loads
    : armStep (.plain .little) (oneWord 4 0xE5F10003)
      = .returned 0
          (singleTransfer (oneWord 4 0xE5F10003) (fetchAddress (oneWord 4 0xE5F10003))
            0xE5F10003) :=
  armStep_singleTransfer (.plain .little) (oneWord 4 0xE5F10003) 0xE5F10003 rfl
    (.of_init ⟨_, rfl⟩) (fetches_oneWord _ (by decide) _) (by decide +kernel)
    (.inl (by decide +kernel)) (fun scaled => absurd scaled (by decide))
    (fun _ => by decide) (by decide +kernel)

end Armator
