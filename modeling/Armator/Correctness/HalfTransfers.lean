import Armator.Architecture.HalfTransfer
import Armator.Correctness.DataAccesses
import Armator.Correctness.ShifterOperand

/-! When `arm_load_store_half` transfers a halfword as the architecture says: its offset is
narrowed to a byte, and the post-indexed base moves by the low four bits of the instruction.
-/

namespace Armator

/-- The base after the code's update of a post-indexed transfer. -/
def codePostIndex (p : ArmCore) (ins : BitVec 32) : BitVec 32 :=
  armReadRegister p (registerField ins 16) + (ins.extractLsb' 0 4).setWidth 32

/-- The base after the code's update of the other forms, the transfer address. -/
def codePreIndex (p : ArmCore) (ins : BitVec 32) : BitVec 32 :=
  let base := armReadRegister p (registerField ins 16)
  if ins.getLsbD 23 then base + (halfOffset p ins).setWidth 32
  else base - (halfOffset p ins).setWidth 32

section Code

variable (p : ArmCore) {ins : BitVec 32} (passes : conditionPassed (armReadCpsr p) ins)
  (form : ¬(ins.getLsbD 24 = false ∧ ins.getLsbD 21 = true))

theorem halfAddress_fst
    : (halfAddress p ins).1
      = if ins.getLsbD 24 then codePreIndex p ins else armReadRegister p (registerField ins 16) := by
  have pre : getBit ins 24 = 1 ↔ ins.getLsbD 24 = true := getBit_eq_one_iff ins 24
  have up : getBit ins 23 ≠ 0 ↔ ins.getLsbD 23 = true := getBit_ne_zero_iff ins 23
  have rn : (getBits ins 19 16).setWidth 8 = registerField ins 16 := getBits_registerField ins 16
  simp only [halfAddress, pre, up, rn, codePreIndex]
  cases ins.getLsbD 24 <;> rfl

include passes form

/-- Without the unpredictable form at most one of the two base updates is made. -/
theorem halfAddress_snd
    : (halfAddress p ins).2
      = if UpdatesBase ins then
          armWriteRegister p (registerField ins 16)
            (if ins.getLsbD 24 then codePreIndex p ins else codePostIndex p ins)
        else p := by
  have pre : getBit ins 24 = 1 ↔ ins.getLsbD 24 = true := getBit_eq_one_iff ins 24
  have up : getBit ins 23 ≠ 0 ↔ ins.getLsbD 23 = true := getBit_ne_zero_iff ins 23
  have write : getBit ins 21 = 1 ↔ ins.getLsbD 21 = true := getBit_eq_one_iff ins 21
  have rn : (getBits ins 19 16).setWidth 8 = registerField ins 16 := getBits_registerField ins 16
  have low : getBits ins 3 0 = (ins.extractLsb' 0 4).setWidth 32 := getBits_eq ins 3 0
  simp only [halfAddress, up, write, rn, low]
  by_cases indexed : ins.getLsbD 24 = true
  · have set := pre.mpr indexed
    simp only [set, indexed, if_true, passes, and_true, codePreIndex, UpdatesBase, reduceCtorEq,
      false_or]
  · have clear := mt pre.mp indexed
    have post := Bool.eq_false_of_not_eq_true indexed
    have plain : ins.getLsbD 21 = false :=
      Bool.eq_false_of_not_eq_true fun set => form ⟨post, set⟩
    simp only [clear, post, plain, codePostIndex, UpdatesBase, Bool.false_eq_true, if_false,
      false_and, true_or, if_true]

end Code

section Access

variable (p : ArmCore) (ins address value : BitVec 32)

/-- An access leaves the registers other than Rd alone. -/
theorem readRegister_halfAccess {reg : BitVec 8} (other : reg ≠ registerField ins 12)
    : readRegister (halfAccess p ins address value).reg reg = readRegister p.reg reg := by
  unfold halfAccess
  split
  · rw [armWriteRegister_reg, readRegister_writeRegister, if_neg fun same => other same.1.symm]
  · rfl

/-- A successful access is the architecture's, in the state that the base updates leave. -/
theorem armLoadStoreHalf_eq {host : Host} (little : host.order = .little)
    (half : getBits ins 7 4 = 0b1011) (passes : conditionPassed (armReadCpsr p) ins)
    (accessible : p.mem.Accessible 2 (halfAddress p ins).1)
    : armLoadStoreHalf host p ins
      = (0, halfAccess (halfAddress p ins).2 ins (halfAddress p ins).1
          (armReadRegister (halfAddress p ins).2 (registerField ins 12))) := by
  have accepted : ¬ getBits ins 7 4 ≠ 0b1011 := fun refused => refused half
  have isLoad : getBit ins 20 = 1 ↔ ins.getLsbD 20 = true := getBit_eq_one_iff ins 20
  have rd : (getBits ins 15 12).setWidth 8 = registerField ins 12 := getBits_registerField ins 12
  have order : (halfAddress p ins).2.mem.order host = (halfAddress p ins).2.mem.endianness :=
    Memory.order_eq_of_little little _
  rw [← halfAddress_mem p ins] at accessible
  simp only [armLoadStoreHalf, if_neg accepted, isLoad, rd, armReadCpsr_halfAddress, passes,
    if_true, halfAccess, armReadHalf, armWriteHalf, memoryReadHalf_eq, memoryWriteHalf_eq,
    if_pos accessible, order]
  cases ins.getLsbD 20 with
  | true =>
      rw [if_pos rfl, if_pos rfl]
      exact congrArg (fun loaded => ((0 : Int), armWriteRegister _ _ loaded))
        (Host.updateFirst_zero little (by decide) _)
  | false =>
      have low (x : BitVec 32) : ((getBits x 15 0).setWidth 16 : BitVec 16) = x.setWidth 16 :=
        getBits_low x (by decide) (by decide)
      rw [if_neg Bool.false_ne_true, if_neg Bool.false_ne_true, low]

end Access

section Offsets

variable (p : ArmCore) (ins : BitVec 32)

/-- The immediate as a number. -/
theorem toNat_immediate
    : ((ins.extractLsb' 8 4 ++ ins.extractLsb' 0 4).setWidth 32 : BitVec 32).toNat
      = 16 * (ins.extractLsb' 8 4).toNat + (ins.extractLsb' 0 4).toNat := by
  have low := (ins.extractLsb' 0 4).isLt
  rw [BitVec.toNat_setWidth_of_le (by decide), BitVec.toNat_append,
    ← Nat.shiftLeft_add_eq_or_of_lt low, Nat.shiftLeft_eq]
  omega

/-- In the immediate form the narrowed offset is the immediate. -/
theorem halfOffset_immediate (immediate : ins.getLsbD 22 = true)
    : halfOffset p ins = ins.extractLsb' 8 4 ++ ins.extractLsb' 0 4 := by
  have isImmediate : getBit ins 22 = 1 := (getBit_eq_one_iff ins 22).mpr immediate
  rw [halfOffset, if_pos isImmediate, getBits_eq, getBits_eq]
  apply BitVec.eq_of_getLsbD_eq
  intro i hi
  simp only [BitVec.getLsbD_setWidth, BitVec.getLsbD_or, BitVec.getLsbD_shiftLeft,
    BitVec.getLsbD_extractLsb', BitVec.getLsbD_append]
  interval_cases i <;> simp

/-- The narrowed offset is the whole one unless it is a register of 256 or more. -/
theorem halfOffset_exact_iff
    : (halfOffset p ins).setWidth 32 = halfTransferOffset p ins
      ↔ ins.getLsbD 22 = true ∨ (armReadRegister p (registerField ins 0)).toNat < 256 := by
  unfold halfTransferOffset
  by_cases immediate : ins.getLsbD 22 = true
  · rw [if_pos immediate, halfOffset_immediate p ins immediate]
    exact iff_of_true rfl (.inl immediate)
  · have isRegister : ¬ getBit ins 22 = 1 := mt (getBit_eq_one_iff ins 22).mp immediate
    have rm : (getBits ins 3 0).setWidth 8 = registerField ins 0 := getBits_registerField ins 0
    have bound := (armReadRegister p (registerField ins 0)).isLt
    rw [if_neg immediate, or_iff_right immediate, halfOffset, if_neg isRegister, rm,
      ← BitVec.toNat_inj, BitVec.toNat_setWidth, BitVec.toNat_setWidth]
    omega

/-- When the code's offset is the architecture's: with P, a register below 256; without, an
offset that is, with its sign, the low four bits of the instruction.
-/
def HalfOffsetExact (p : ArmCore) (ins : BitVec 32) : Prop :=
  let rm := armReadRegister p (registerField ins 0)
  if ins.getLsbD 24 then ins.getLsbD 22 = true ∨ rm.toNat < 256
  else if ins.getLsbD 22 then
    ins.extractLsb' 8 4 = 0 ∧ (ins.getLsbD 23 = true ∨ ins.extractLsb' 0 4 = 0)
  else
    let number := (ins.extractLsb' 0 4).setWidth 32
    rm = if ins.getLsbD 23 then number else -number

theorem codePreIndex_exact_iff
    : codePreIndex p ins = movedHalfBase p ins
      ↔ (halfOffset p ins).setWidth 32 = halfTransferOffset p ins := by
  unfold codePreIndex movedHalfBase
  simp only
  split
  · exact BitVec.add_right_inj _
  · exact BitVec.sub_right_inj _

/-- The post-indexed base is right iff the offset is. Witness: the base cancels, and the nibbles
of the immediate are numbers below 16.
-/
theorem codePostIndex_exact_iff (post : ins.getLsbD 24 = false)
    : codePostIndex p ins = movedHalfBase p ins ↔ HalfOffsetExact p ins := by
  have moved : codePostIndex p ins = movedHalfBase p ins
      ↔ (ins.extractLsb' 0 4).setWidth 32
        = if ins.getLsbD 23 then halfTransferOffset p ins else -halfTransferOffset p ins := by
    unfold codePostIndex movedHalfBase
    simp only
    split
    · exact BitVec.add_right_inj _
    · rw [BitVec.sub_eq_add_neg]
      exact BitVec.add_right_inj _
  have low := (ins.extractLsb' 0 4).isLt
  have high := (ins.extractLsb' 8 4).isLt
  have number
      : ((ins.extractLsb' 0 4).setWidth 32 : BitVec 32).toNat = (ins.extractLsb' 0 4).toNat :=
    BitVec.toNat_setWidth_of_le (by decide)
  have zero (x : BitVec 4) : x = 0 ↔ x.toNat = 0 := by
    rw [← BitVec.toNat_inj]
    rfl
  rw [moved]
  simp only [HalfOffsetExact, post, Bool.false_eq_true, if_false, halfTransferOffset]
  by_cases immediate : ins.getLsbD 22 = true
  · simp only [immediate, if_true, zero]
    by_cases up : ins.getLsbD 23 = true
    · rw [if_pos up, ← BitVec.toNat_inj, toNat_immediate, number]
      simp only [up, true_or, and_true]
      omega
    · rw [if_neg up, ← BitVec.toNat_inj, BitVec.toNat_neg, toNat_immediate, number]
      simp only [up, Bool.false_eq_true, false_or]
      omega
  · simp only [immediate, Bool.false_eq_true, if_false]
    by_cases up : ins.getLsbD 23 = true
    · rw [if_pos up, if_pos up]
      exact eq_comm
    · rw [if_neg up, if_neg up]
      exact ⟨fun same => by rw [same, BitVec.neg_neg], fun same => by rw [same, BitVec.neg_neg]⟩

end Offsets

/-- What the property is about: the address of the access, and all that the instruction leaves. -/
def TransfersHalf (host : Host) (p : ArmCore) (ins : BitVec 32) : Prop :=
  (halfAddress p ins).1 = halfTransferAddress p ins
  ∧ armLoadStoreHalf host p ins = (0, halfTransfer p ins)

/-- A halfword transfer is the architecture's exactly for the offsets of `HalfOffsetExact`.
Witness: the base that the code leaves is the architecture's iff the offset is exact; an access
does not touch the base register.
-/
theorem armLoadStoreHalf_exact_iff (host : Host) (p : ArmCore) (ins : BitVec 32)
    (little : host.order = .little) (half : getBits ins 7 4 = 0b1011)
    (passes : conditionPassed (armReadCpsr p) ins)
    (distinct : UpdatesBase ins → registerField ins 16 ≠ registerField ins 12)
    (form : ¬(ins.getLsbD 24 = false ∧ ins.getLsbD 21 = true))
    (accessible : p.mem.Accessible 2 (halfAddress p ins).1)
    : TransfersHalf host p ins ↔ HalfOffsetExact p ins := by
  have code := armLoadStoreHalf_eq p ins little half passes accessible
  have kept (value : BitVec 32) (updates : UpdatesBase ins)
      : armReadRegister (armWriteRegister p (registerField ins 16) value) (registerField ins 12)
        = armReadRegister p (registerField ins 12) := by
    simp only [armReadRegister, armWriteRegister_reg, readRegister_writeRegister,
      if_neg fun same : registerField ins 16 = registerField ins 12 ∧ _ => distinct updates same.1]
  rw [TransfersHalf, code, halfAddress_snd p passes form, halfAddress_fst, halfTransfer,
    halfTransferAddress]
  by_cases indexed : ins.getLsbD 24 = true
  · have exact_iff : codePreIndex p ins = movedHalfBase p ins ↔ HalfOffsetExact p ins := by
      rw [codePreIndex_exact_iff, halfOffset_exact_iff, HalfOffsetExact, if_pos indexed]
    simp only [indexed, if_true]
    refine ⟨fun right => exact_iff.mp right.1, fun right => ?_⟩
    have moved := exact_iff.mpr right
    refine ⟨moved, ?_⟩
    rw [moved]
    split
    · next updates => rw [kept _ updates]
    · rfl
  · have post := Bool.eq_false_of_not_eq_true indexed
    have updates : UpdatesBase ins := .inl post
    have exact_iff := codePostIndex_exact_iff p ins post
    simp only [post, Bool.false_eq_true, if_false, true_and, if_pos updates, kept _ updates]
    constructor
    · intro same
      have base := congrArg (fun outcome : Int × ArmCore =>
        readRegister outcome.2.reg (registerField ins 16)) same
      simp only [readRegister_halfAccess _ _ _ _ (distinct updates), armWriteRegister_reg,
        readRegister_writeRegister, true_and] at base
      have inside : (registerField ins 16).toNat < 16 := by
        rw [registerField, toNat_field8 ins 16 4 (by decide)]
        exact (ins.extractLsb' 16 4).isLt
      rw [if_pos inside, if_pos inside] at base
      exact exact_iff.mp base
    · intro right
      rw [exact_iff.mpr right]

/-- LDRH r0, [r1, #2] is right. -/
theorem ldrh_immediate_transfers
    : TransfersHalf (.plain .little) (oneWord 4 0xE1D100B2) 0xE1D100B2 :=
  (armLoadStoreHalf_exact_iff (.plain .little) (oneWord 4 0xE1D100B2) 0xE1D100B2 rfl
    (by decide +kernel) (by decide +kernel) (fun _ => by decide) (by decide)
    (by decide +kernel)).mpr (.inl (by decide))

/-- LDRH r0, [r1], #16 succeeds, and its base stays where it is. -/
theorem ldrh_postIndexed_keepsBase
    : let p := oneWord 4 0xE0D101B0
      getBits 0xE0D101B0 7 4 = 0b1011
      ∧ conditionPassed (armReadCpsr p) 0xE0D101B0 = true
      ∧ registerField 0xE0D101B0 16 ≠ registerField 0xE0D101B0 12
      ∧ (0xE0D101B0 : BitVec 32).getLsbD 21 = false
      ∧ p.mem.Accessible 2 (halfAddress p 0xE0D101B0).1
      ∧ readRegister (armLoadStoreHalf (.plain .little) p 0xE0D101B0).2.reg 1 = 0
      ∧ readRegister (halfTransfer p 0xE0D101B0).reg 1 = 16 := by
  decide +kernel

end Armator
