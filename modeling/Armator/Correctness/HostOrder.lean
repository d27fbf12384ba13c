import Armator.Correctness.StoreFrame

/-! What the byte order of the host shows in: the loads of bytes and halfwords, which assign
through a narrow pointer into a word.
-/

namespace Armator

/-- The same machine and compiler with another byte order. -/
def Host.withOrder (host : Host) (order : ByteOrder) : Host :=
  { host with order }

-----------------------------------------------------------------------------------------
-- Data processing and addresses
-----------------------------------------------------------------------------------------

section Shifts

variable (host : Host) (order : ByteOrder)

@[simp]
theorem Host.shl_withOrder : (host.withOrder order).shl = host.shl := rfl

@[simp]
theorem Host.shr_withOrder : (host.withOrder order).shr = host.shr := rfl

theorem asr_withOrder : asr (host.withOrder order) = asr host := rfl

theorem ror_withOrder : ror (host.withOrder order) = ror host := rfl

/-- Shifts are the same on both hosts, and so are the operands. -/
theorem decodeOperand_withOrder (p : ArmCore) (ins : BitVec 32)
    : decodeOperand (host.withOrder order) p ins = decodeOperand host p ins := by
  simp only [decodeOperand, applyRotationImm, applyShift, Host.shl_withOrder, Host.shr_withOrder,
    asr_withOrder, ror_withOrder]

theorem armDataProcessingShift_withOrder (p : ArmCore) (ins : BitVec 32)
    : armDataProcessingShift (host.withOrder order) p ins = armDataProcessingShift host p ins := by
  simp only [armDataProcessingShift, decodeOperand_withOrder]

theorem loadStoreIndex_withOrder (p : ArmCore) (ins : BitVec 32)
    : loadStoreIndex (host.withOrder order) p ins = loadStoreIndex host p ins := by
  simp only [loadStoreIndex, scaledIndex, Host.shl_withOrder, Host.shr_withOrder,
    asr_withOrder, ror_withOrder]

end Shifts

-----------------------------------------------------------------------------------------
-- Memory accesses
-----------------------------------------------------------------------------------------

section Accesses

variable (host : Host) (order : ByteOrder) {p : ArmCore}
  (flag : p.mem.isBigEndian = 0 ∨ p.mem.isBigEndian = 1)

include flag

theorem Memory.order_withOrder : p.mem.order (host.withOrder order) = p.mem.order host := by
  rw [Memory.order_eq_of_flag _ _ flag, Memory.order_eq_of_flag _ _ flag]

theorem armReadHalf_withOrder (address : BitVec 32) (value : BitVec 16)
    : armReadHalf (host.withOrder order) p address value = armReadHalf host p address value := by
  simp only [armReadHalf, memoryReadHalf_eq, Memory.order_withOrder host order flag]

theorem armReadWord_withOrder (address value : BitVec 32)
    : armReadWord (host.withOrder order) p address value = armReadWord host p address value := by
  simp only [armReadWord, memoryReadWord_eq, Memory.order_withOrder host order flag]

theorem armWriteHalf_withOrder (address : BitVec 32) (value : BitVec 16)
    : armWriteHalf (host.withOrder order) p address value
      = armWriteHalf host p address value := by
  simp only [armWriteHalf, memoryWriteHalf_eq, Memory.order_withOrder host order flag]

theorem armWriteWord_withOrder (address value : BitVec 32)
    : armWriteWord (host.withOrder order) p address value
      = armWriteWord host p address value := by
  simp only [armWriteWord, memoryWriteWord_eq, Memory.order_withOrder host order flag]

theorem fetches_withOrder (ins : BitVec 32)
    : Fetches (host.withOrder order) p ins ↔ Fetches host p ins := by
  have read := armReadWord_withOrder host order flag (fetchAddress p) 0
  simp only [armReadWord] at read
  simp only [Fetches, armFetch_eq, read]

end Accesses

-----------------------------------------------------------------------------------------
-- Multiple transfers
-----------------------------------------------------------------------------------------

section Loops

variable (host : Host) (order : ByteOrder)

/-- The store loop, by induction on its list: no store changes the flag of the memory. -/
theorem foldl_stmStep_withOrder (list : List Nat) (s : MultipleState)
    (flag : s.p.mem.isBigEndian = 0 ∨ s.p.mem.isBigEndian = 1)
    : list.foldl (stmStep (host.withOrder order)) s = list.foldl (stmStep host) s := by
  induction list generalizing s with
  | nil => rw [List.foldl_nil, List.foldl_nil]
  | cons ri rest ih =>
      have first : stmStep (host.withOrder order) s ri = stmStep host s ri := by
        simp only [stmStep, armWriteWord_withOrder host order flag]
      have kept : (stmStep host s ri).p.mem.isBigEndian = s.p.mem.isBigEndian :=
        (SameMachine.writeWord host s.p _ _).flag
      rw [List.foldl_cons, List.foldl_cons, first]
      exact ih _ (by rwa [kept])

theorem ldmStep_mem (s : MultipleState) (ri : Nat) : (ldmStep host s ri).p.mem = s.p.mem := rfl

theorem foldl_ldmStep_mem (list : List Nat) (s : MultipleState)
    : (list.foldl (ldmStep host) s).p.mem = s.p.mem := by
  induction list generalizing s with
  | nil => rfl
  | cons ri rest ih => rw [List.foldl_cons, ih, ldmStep_mem]

theorem foldl_ldmStep_withOrder (list : List Nat) (s : MultipleState)
    (flag : s.p.mem.isBigEndian = 0 ∨ s.p.mem.isBigEndian = 1)
    : list.foldl (ldmStep (host.withOrder order)) s = list.foldl (ldmStep host) s := by
  induction list generalizing s with
  | nil => rw [List.foldl_nil, List.foldl_nil]
  | cons ri rest ih =>
      have first : ldmStep (host.withOrder order) s ri = ldmStep host s ri := by
        simp only [ldmStep, armReadWord_withOrder host order flag]
      rw [List.foldl_cons, List.foldl_cons, first]
      exact ih _ (by rwa [ldmStep_mem])

theorem ldmTransfer_withOrder (ins : BitVec 32) (s : MultipleState)
    (flag : s.p.mem.isBigEndian = 0 ∨ s.p.mem.isBigEndian = 1)
    : ldmTransfer (host.withOrder order) ins s = ldmTransfer host ins s := by
  have flagAfter := flag
  rw [← foldl_ldmStep_mem host (loopList ins) s] at flagAfter
  simp only [ldmTransfer, ldmLoop_eq_foldl, foldl_ldmStep_withOrder host order _ s flag,
    armReadWord_withOrder host order flagAfter]

/-- Word transfers are the same on both hosts. -/
theorem armLoadStoreMultiple_withOrder {p : ArmCore} (ins : BitVec 32)
    (flag : p.mem.isBigEndian = 0 ∨ p.mem.isBigEndian = 1)
    : armLoadStoreMultiple (host.withOrder order) p ins = armLoadStoreMultiple host p ins := by
  have flagAfter := flag
  rw [← multipleAddresses_mem p ins] at flagAfter
  have load := ldmTransfer_withOrder host order ins
    { p := (multipleAddresses p ins).2.2, address := (multipleAddresses p ins).1, value := 0 }
    flagAfter
  have store := foldl_stmStep_withOrder host order (loopList ins)
    { p := (multipleAddresses p ins).2.2, address := (multipleAddresses p ins).1, value := 0 }
    flagAfter
  simp only [armLoadStoreMultiple, stmTransfer_eq_foldl, load, store]

end Loops

-----------------------------------------------------------------------------------------
-- Narrow loads
-----------------------------------------------------------------------------------------

/-- The word is a load of a byte or halfword that succeeds with a value other than 0. -/
def LoadsNarrow (host : Host) (p : ArmCore) (ins : BitVec 32) : Prop :=
  ins.getLsbD 20 = true
  ∧ ∃ access ∈ dataAccesses host p ins,
      access.width < 4
      ∧ p.mem.Accessible access.width access.address
      ∧ ∃ i < access.width, p.mem.data (access.address.toNat + i) ≠ 0

section Narrow

variable (host : Host)

/-- The value of a narrow read ends up at the lower or at the upper end of the word. -/
theorem updateFirst_little {w : Nat} (hw : 8 ∣ w) (part : BitVec w)
    : (host.withOrder .little).updateFirst 0 part = part.setWidth 32 :=
  Host.updateFirst_zero rfl hw part

theorem updateFirst_big {w : Nat} (hw : 8 ∣ w) (narrow : w ≤ 32) (part : BitVec w)
    : (host.withOrder .big).updateFirst 0 part = part.setWidth 32 <<< (32 - w) :=
  Host.updateFirst_zero_big rfl hw narrow part

/-- Words whose upper ends are those of the two hosts come from the same bits only for 0. -/
theorem eq_zero_of_sameTop {w : Nat} (narrow : w ≤ 16) (part : BitVec w)
    (same : ∀ j, 16 ≤ j → j < 32
      → (part.setWidth 32 <<< (32 - w)).getLsbD j = (part.setWidth 32).getLsbD j)
    : part = 0 := by
  apply BitVec.eq_of_getLsbD_eq
  intro j hj
  have top := same (32 - w + j) (by omega) (by omega)
  have upper : ¬ 32 - w + j < 32 - w := by omega
  have place : 32 - w + j - (32 - w) = j := by omega
  have above : w ≤ 32 - w + j := by omega
  have inside : 32 - w + j < 32 := by omega
  have low : j < 32 := by omega
  rw [BitVec.getLsbD_shiftLeft, place, BitVec.getLsbD_setWidth, BitVec.getLsbD_setWidth,
    BitVec.getLsbD_of_ge part _ above] at top
  simp only [inside, upper, low, decide_true, decide_false, Bool.not_false, Bool.true_and,
    Bool.and_false] at top
  rw [top, BitVec.ofNat_eq_ofNat, BitVec.getLsbD_zero]

/-- Both hosts leave the same word only for the value 0. -/
theorem updateFirst_eq_iff {w : Nat} (hw : 8 ∣ w) (narrow : w ≤ 16) (part : BitVec w)
    : (host.withOrder .big).updateFirst 0 part = (host.withOrder .little).updateFirst 0 part
      ↔ part = 0 := by
  rw [updateFirst_little host hw, updateFirst_big host hw (by omega)]
  constructor
  · exact fun same => eq_zero_of_sameTop narrow part fun j _ _ => by rw [same]
  · rintro rfl
    simp

/-- The value that a narrow variable starts with is 0. -/
theorem viewFirst_zero (w : Nat) : host.viewFirst w 0 = 0 := by
  apply BitVec.eq_of_getLsbD_eq
  intro j hj
  rw [Host.viewFirst, ByteStore.load, ByteOrder.getLsbD_ofBytes, ByteOrder.getLsbD_byteOf]
  simp

/-- The old content of a register decides nothing about a new one. -/
theorem armWriteRegister_inj {p : ArmCore} {reg : BitVec 8} (low : reg.toNat < 16)
    {first second : BitVec 32}
    : armWriteRegister p reg first = armWriteRegister p reg second ↔ first = second := by
  constructor
  · intro same
    have read := congrArg (fun p => readRegister p.reg reg) same
    simpa only [armWriteRegister_reg, readRegister_writeRegister, low, and_self, if_true]
      using read
  · rintro rfl
    rfl

/-- What a narrow read leaves in a blank variable is 0 unless it reads something else. -/
theorem armReadByte_eq_zero_iff (p : ArmCore) (address : BitVec 32)
    : (armReadByte p address 0).2 = 0
      ↔ ¬ (p.mem.Accessible 1 address ∧ ∃ i < 1, p.mem.data (address.toNat + i) ≠ 0) := by
  simp only [armReadByte, memoryReadByte_eq, Nat.lt_one_iff, exists_eq_left, Nat.add_zero]
  split
  · next accessible => simp only [accessible, true_and, ne_eq, not_not]
  · next fails => exact iff_of_true rfl fun inside => fails inside.1

theorem armReadHalf_eq_zero_iff (p : ArmCore) (address : BitVec 32)
    : (armReadHalf host p address 0).2 = 0
      ↔ ¬ (p.mem.Accessible 2 address ∧ ∃ i < 2, p.mem.data (address.toNat + i) ≠ 0) := by
  simp only [armReadHalf, memoryReadHalf_eq]
  split
  · next accessible =>
      simp only [accessible, true_and, ne_eq, not_exists, not_and, not_not]
      exact ByteStore.load_eq_zero_iff (by decide) _
  · next fails => exact iff_of_true rfl fun inside => fails inside.1

end Narrow

section Decoders

variable (host : Host) {p : ArmCore} {ins : BitVec 32}

theorem loadsNarrow_half (half : IsHalfTransfer ins)
    : LoadsNarrow host p ins
      ↔ ins.getLsbD 20 = true
        ∧ conditionPassed (armReadCpsr p) ins
        ∧ p.mem.Accessible 2 (halfAddress p ins).1
        ∧ ∃ i < 2, p.mem.data ((halfAddress p ins).1.toNat + i) ≠ 0 := by
  simp only [LoadsNarrow, dataAccesses, half, if_true]
  by_cases passes : conditionPassed (armReadCpsr p) ins
  · simp only [passes, if_true, List.mem_singleton, exists_eq_left, true_and]
    exact and_congr_right fun _ => and_iff_right (by decide)
  · simp only [passes, Bool.false_eq_true, if_false, List.not_mem_nil, false_and, exists_false]

theorem loadsNarrow_single (single : insClass ins = 2 ∨ insClass ins = 3)
    : LoadsNarrow host p ins
      ↔ ins.getLsbD 20 = true
        ∧ conditionPassed (armReadCpsr p) ins
        ∧ ins.getLsbD 22 = true
        ∧ p.mem.Accessible 1 (loadStoreAddress p ins (loadStoreIndex host p ins))
        ∧ ∃ i < 1,
            p.mem.data ((loadStoreAddress p ins (loadStoreIndex host p ins)).toNat + i) ≠ 0 := by
  have notHalf : ¬ IsHalfTransfer ins := (notLow_of_single single).1
  simp only [LoadsNarrow, dataAccesses, notHalf, single, if_true, if_false]
  by_cases passes : conditionPassed (armReadCpsr p) ins
  · simp only [passes, if_true, List.mem_singleton, exists_eq_left, true_and]
    refine and_congr_right fun _ => ?_
    cases ins.getLsbD 22 with
    | true => exact and_congr_left fun _ => iff_of_true (by decide) rfl
    | false =>
        simp only [Bool.false_eq_true, if_false, Nat.lt_irrefl, false_and]
  · simp only [passes, Bool.false_eq_true, if_false, List.not_mem_nil, false_and, exists_false]

/-- Other words have no narrow access. -/
theorem not_loadsNarrow_of_not_transfer
    (other : ¬ IsHalfTransfer ins ∧ ¬ (insClass ins = 2 ∨ insClass ins = 3))
    : ¬ LoadsNarrow host p ins := by
  rintro ⟨-, access, member, narrow, -⟩
  simp only [dataAccesses, other.1, other.2, if_false] at member
  split at member
  · split at member
    · have word : access.width = 4 := by
        unfold multipleAccesses at member
        simp only at member
        split at member
        · rcases List.mem_append.mp member with loop | last
          · obtain ⟨slot, -, rfl⟩ := List.mem_map.mp loop
            rfl
          · rw [List.mem_singleton.mp last]
        · obtain ⟨slot, -, rfl⟩ := List.mem_map.mp member
          rfl
      omega
    · cases member
  · cases member

/-- Halfword transfers agree on both hosts unless they load a nonzero halfword. -/
theorem armLoadStoreHalf_sameOrder_iff (half : IsHalfTransfer ins)
    (flag : p.mem.isBigEndian = 0 ∨ p.mem.isBigEndian = 1)
    : (armLoadStoreHalf (host.withOrder .big) p ins).2
        = (armLoadStoreHalf (host.withOrder .little) p ins).2
      ↔ ¬ LoadsNarrow (host.withOrder .little) p ins := by
  have isLoad : getBit ins 20 = 1 ↔ ins.getLsbD 20 = true := getBit_eq_one_iff ins 20
  have flagAfter := flag
  rw [← halfAddress_mem p ins] at flagAfter
  have accepted : ¬ getBits ins 7 4 ≠ 0b1011 := fun refused => refused half.2
  rw [loadsNarrow_half _ half]
  simp only [armLoadStoreHalf, if_neg accepted, isLoad, armReadCpsr_halfAddress,
    viewFirst_zero, armReadHalf_withOrder host _ flagAfter,
    armWriteHalf_withOrder host _ flagAfter]
  cases ins.getLsbD 20 with
  | false => simp
  | true =>
      by_cases passes : conditionPassed (armReadCpsr p) ins
      · have low : ((getBits ins 15 12).setWidth 8 : BitVec 8).toNat < 16 :=
          toNat_registerField_lt ins 12
        have value := armReadHalf_eq_zero_iff host (halfAddress p ins).2 (halfAddress p ins).1
        rw [halfAddress_mem] at value
        simp only [passes, if_true, true_and]
        rw [armWriteRegister_inj low, updateFirst_eq_iff host (by decide) (by decide), value]
      · simp [passes]

/-- A byte loaded into the pc also reaches the T bit, from its own lowest bit. -/
theorem loadPc_eq_iff (psr : BitVec 32) (part : BitVec 8)
    : let high := (host.withOrder .big).updateFirst 0 part
      let low := (host.withOrder .little).updateFirst 0 part
      armWriteCpsr (armWriteRegister p 15 (high &&& 0xFFFFFFFE))
          (if getBit high 0 ≠ 0 then setBit psr CpsrBit.T
          else clrBit psr CpsrBit.T)
        = armWriteCpsr (armWriteRegister p 15 (low &&& 0xFFFFFFFE))
            (if getBit low 0 ≠ 0 then setBit psr CpsrBit.T
            else clrBit psr CpsrBit.T)
      ↔ part = 0 := by
  intro high low
  constructor
  · intro same
    have read := congrArg (fun p => readRegister p.reg 15) same
    simp only [armWriteCpsr_reg, armWriteRegister_reg, readRegister_writeCpsr,
      readRegister_writeRegister] at read
    rw [if_pos ⟨trivial, by decide⟩, if_pos ⟨trivial, by decide⟩] at read
    simp only [high, low, updateFirst_little host (by decide : 8 ∣ 8),
      updateFirst_big host (by decide : 8 ∣ 8) (by decide)] at read
    refine eq_zero_of_sameTop (by decide) part fun j upper inside => ?_
    have kept : (0xFFFFFFFE : BitVec 32).getLsbD j = true := by
      interval_cases j <;> rfl
    have bit := congrArg (fun word : BitVec 32 => word.getLsbD j) read
    simpa only [BitVec.getLsbD_and, kept, Bool.and_true] using bit
  · intro zero
    have same : high = low := (updateFirst_eq_iff host (by decide) (by decide) part).mpr zero
    rw [same]

/-- Word and byte transfers agree on both hosts unless they load a nonzero byte. -/
theorem armLoadStore_sameOrder_iff (single : insClass ins = 2 ∨ insClass ins = 3)
    (flag : p.mem.isBigEndian = 0 ∨ p.mem.isBigEndian = 1)
    : (armLoadStore (host.withOrder .big) p ins).2
        = (armLoadStore (host.withOrder .little) p ins).2
      ↔ ¬ LoadsNarrow (host.withOrder .little) p ins := by
  have isLoad : getBit ins 20 = 1 ↔ ins.getLsbD 20 = true := getBit_eq_one_iff ins 20
  have isByte : getBit ins 22 = 1 ↔ ins.getLsbD 22 = true := getBit_eq_one_iff ins 22
  have low : ((getBits ins 15 12).setWidth 8 : BitVec 8).toNat < 16 :=
    toNat_registerField_lt ins 12
  rw [loadsNarrow_single _ single]
  simp only [armLoadStore, loadedValue, loadStoreIndex_withOrder, isLoad, isByte,
    armReadCpsr_loadStoreWriteBack, viewFirst_zero, armReadCpsr_armWriteRegister]
  generalize addressed : loadStoreAddress p ins (loadStoreIndex host p ins) = address
  generalize moved : loadStoreWriteBack p ins (loadStoreIndex host p ins) address = q
  have mem : q.mem = p.mem := by rw [← moved, loadStoreWriteBack_mem]
  have flagAfter := flag
  rw [← mem] at flagAfter
  simp only [armReadWord_withOrder host _ flagAfter, armWriteWord_withOrder host _ flagAfter]
  have value := armReadByte_eq_zero_iff q address
  rw [mem] at value
  by_cases loads : ins.getLsbD 20 = true ∧ conditionPassed (armReadCpsr p) ins
      ∧ ins.getLsbD 22 = true
  · obtain ⟨load, passes, byte⟩ := loads
    simp only [load, passes, byte, if_true, true_and]
    rw [← value]
    split
    · exact loadPc_eq_iff host _ _
    · rw [armWriteRegister_inj low, updateFirst_eq_iff host (by decide) (by decide)]
  · refine iff_of_true ?_ fun narrow => loads ⟨narrow.1, narrow.2.1, narrow.2.2.1⟩
    cases load : ins.getLsbD 20 with
    | false => simp
    | true =>
        by_cases passes : conditionPassed (armReadCpsr p) ins
        · have word : ins.getLsbD 22 = false :=
            Bool.eq_false_of_not_eq_true fun byte => loads ⟨load, passes, byte⟩
          simp only [word, Bool.false_eq_true, if_false]
        · simp only [passes, Bool.false_eq_true, if_false, if_true]

end Decoders

-----------------------------------------------------------------------------------------
-- Steps and runs
-----------------------------------------------------------------------------------------

/-- The next step loads a nonzero byte or halfword. -/
def StepShowsOrder (host : Host) (p : ArmCore) : Prop :=
  ∃ ins, Fetches host p ins ∧ LoadsNarrow host (afterFetch p) ins

theorem stepShowsOrder_iff {host : Host} {p : ArmCore} {ins : BitVec 32}
    (fetched : Fetches host p ins)
    : StepShowsOrder host p ↔ LoadsNarrow host (afterFetch p) ins := by
  constructor
  · rintro ⟨other, fetchedOther, narrow⟩
    obtain rfl : ins = other := fetched.accessible.2.trans fetchedOther.accessible.2.symm
    exact narrow
  · exact fun narrow => ⟨ins, fetched, narrow⟩

/-- A step is the same on both hosts unless it loads a nonzero byte or halfword.
Witness: one case for each decoder.
-/
theorem armStep_sameOrder_iff (host : Host) {p : ArmCore}
    (flag : p.mem.isBigEndian = 0 ∨ p.mem.isBigEndian = 1)
    : armStep (host.withOrder .big) p = armStep (host.withOrder .little) p
      ↔ ¬ StepShowsOrder (host.withOrder .little) p := by
  by_cases accessible : p.mem.Accessible 4 (fetchAddress p)
  · have little := fetches_of_accessible (host.withOrder .little) accessible
    generalize ByteStore.load _ 32 p.mem.data (fetchAddress p).toNat = ins at little
    have big : Fetches (host.withOrder .big) p ins :=
      (fetches_withOrder (host.withOrder .little) .big flag ins).mpr little
    have plain (decodes : decoderOutcome (host.withOrder .big) (afterFetch p) ins
          = decoderOutcome (host.withOrder .little) (afterFetch p) ins)
        : armStep (host.withOrder .big) p = armStep (host.withOrder .little) p := by
      cases outcome : decoderOutcome (host.withOrder .little) (afterFetch p) ins with
      | returned code q =>
          rw [armStep_of_returned little outcome]
          exact armStep_of_returned big (decodes.trans outcome)
      | exited status =>
          rw [armStep_of_exited little outcome]
          exact armStep_of_exited big (decodes.trans outcome)
    have others (other : ¬ IsHalfTransfer ins ∧ ¬ (insClass ins = 2 ∨ insClass ins = 3))
        (decodes : decoderOutcome (host.withOrder .big) (afterFetch p) ins
          = decoderOutcome (host.withOrder .little) (afterFetch p) ins)
        : armStep (host.withOrder .big) p = armStep (host.withOrder .little) p
          ↔ ¬ LoadsNarrow (host.withOrder .little) (afterFetch p) ins :=
      iff_of_true (plain decodes) (not_loadsNarrow_of_not_transfer _ other)
    have notTransfer {c : BitVec 8} (isClass : insClass ins = c)
        (notZero : c ≠ 0) (notSingle : ¬ (c = 2 ∨ c = 3))
        : ¬ IsHalfTransfer ins ∧ ¬ (insClass ins = 2 ∨ insClass ins = 3) :=
      ⟨fun half => notZero (isClass.symm.trans half.1), isClass ▸ notSingle⟩
    rw [stepShowsOrder_iff little]
    rcases insClass_cases ins with half | data | single | class4 | class5 | class6 | class7
    · rw [armStep_of_returned big (decoderOutcome_half _ _ half),
        armStep_of_returned little (decoderOutcome_half _ _ half)]
      simp only [Outcome.returned.injEq, true_and]
      exact armLoadStoreHalf_sameOrder_iff host half flag
    · refine others ?_ ?_
      · rcases data with ⟨class0, notHalf⟩ | class1
        · exact ⟨fun half => notHalf half.2, by rw [class0]; decide⟩
        · exact notTransfer class1 (by decide) (by decide)
      · rw [decoderOutcome_data _ _ data, decoderOutcome_data _ _ data,
          armDataProcessingShift_withOrder, armDataProcessingShift_withOrder]
    · rw [armStep_of_returned big (decoderOutcome_single _ _ single),
        armStep_of_returned little (decoderOutcome_single _ _ single)]
      simp only [Outcome.returned.injEq, true_and]
      exact armLoadStore_sameOrder_iff host single flag
    · refine others (notTransfer class4 (by decide) (by decide)) ?_
      have flagAfter : (afterFetch p).mem.isBigEndian = 0 ∨ (afterFetch p).mem.isBigEndian = 1 :=
        flag
      rw [decoderOutcome_multiple _ _ class4, decoderOutcome_multiple _ _ class4,
        armLoadStoreMultiple_withOrder host .big ins flagAfter,
        armLoadStoreMultiple_withOrder host .little ins flagAfter]
    · refine others (notTransfer class5 (by decide) (by decide)) ?_
      rw [decoderOutcome_branch _ _ class5, decoderOutcome_branch _ _ class5]
    · refine others (notTransfer class6 (by decide) (by decide)) ?_
      rw [decoderOutcome_coprocessor _ _ class6, decoderOutcome_coprocessor _ _ class6]
    · refine others (notTransfer class7 (by decide) (by decide)) ?_
      rw [decoderOutcome_swi _ _ class7, decoderOutcome_swi _ _ class7]
  · refine iff_of_true ?_ ?_
    · rw [armStep_of_failedFetch _ accessible, armStep_of_failedFetch _ accessible]
    · rintro ⟨ins, fetched, -⟩
      exact accessible fetched.accessible.1

/-- No run changes the flag of the memory, by induction on its length. -/
theorem armSteps_flag {host : Host} {p q : ArmCore} {n : Nat} {result : Int}
    (run : armSteps host n p = .returned result q)
    : q.mem.isBigEndian = p.mem.isBigEndian := by
  induction n generalizing q result with
  | zero =>
      obtain ⟨-, rfl⟩ := Outcome.returned.inj run
      rfl
  | succ n ih =>
      rw [armSteps] at run
      cases before : armSteps host n p with
      | returned code r =>
          rw [before] at run
          exact (SameMachine.armStep run).flag.trans (ih before)
      | exited status =>
          rw [before] at run
          exact Outcome.noConfusion run

/-- The first `n` steps of a run are the same on both hosts iff none of them, on the
little-endian host, loads a nonzero byte or halfword. Witness: induction on `n` with the lemma
for one step.
-/
theorem armSteps_sameOrder_iff (host : Host) (p : ArmCore) (n : Nat)
    (flag : p.mem.isBigEndian = 0 ∨ p.mem.isBigEndian = 1)
    : (∀ k ≤ n,
        armSteps (host.withOrder .big) k p = armSteps (host.withOrder .little) k p)
      ↔ ∀ k < n, ∀ result q,
          armSteps (host.withOrder .little) k p = .returned result q
          → ¬ StepShowsOrder (host.withOrder .little) q := by
  induction n with
  | zero =>
      refine iff_of_true ?_ fun k below => absurd below (Nat.not_lt_zero k)
      intro k first
      rw [Nat.le_zero.mp first]
      rfl
  | succ n ih =>
      have last (same : armSteps (host.withOrder .big) n p = armSteps (host.withOrder .little) n p)
          : armSteps (host.withOrder .big) (n + 1) p = armSteps (host.withOrder .little) (n + 1) p
            ↔ ∀ result q, armSteps (host.withOrder .little) n p = .returned result q
                → ¬ StepShowsOrder (host.withOrder .little) q := by
        rw [armSteps, armSteps, same]
        cases before : armSteps (host.withOrder .little) n p with
        | returned code r =>
            have flagBefore := armSteps_flag before
            rw [← flagBefore] at flag
            simp only [Outcome.returned.injEq, and_imp]
            rw [armStep_sameOrder_iff host flag]
            constructor
            · rintro same result q rfl rfl
              exact same
            · exact fun same => same code r rfl rfl
        | exited status => simp
      constructor
      · intro same k below result q run
        rcases Nat.lt_succ_iff_lt_or_eq.mp below with earlier | rfl
        · exact ih.mp (fun k first => same k (by omega)) k earlier result q run
        · exact (last (same k (by omega))).mp (same (k + 1) (by omega)) result q run
      · intro harmless k first
        have before := ih.mpr fun k below => harmless k (by omega)
        rcases Nat.le_succ_iff.mp first with earlier | rfl
        · exact before k earlier
        · exact (last (before n (Nat.le_refl n))).mpr (harmless n (Nat.lt_succ_self n))

/-- LDR r0, [r1] loads its own word in the same way, and an ANDEQ runs behind it. -/
theorem ldr_sameOrder
    : armSteps ((Host.plain .little).withOrder .big) 2 (oneWord 8 0xE5910000)
      = armSteps ((Host.plain .little).withOrder .little) 2 (oneWord 8 0xE5910000) := by
  let host := (Host.plain .little).withOrder .little
  have fetched : Fetches host (oneWord 8 0xE5910000) 0xE5910000 :=
    fetches_oneWord host (by decide) 0xE5910000
  have single : insClass 0xE5910000 = 2 ∨ insClass 0xE5910000 = 3 := by decide
  have first := armStep_of_returned fetched (decoderOutcome_single _ _ single)
  refine (armSteps_sameOrder_iff (.plain .little) (oneWord 8 0xE5910000) 2 (.inl rfl)).mpr ?_ 2
    (Nat.le_refl 2)
  intro k below result q run
  obtain rfl | rfl : k = 0 ∨ k = 1 := by omega
  · obtain ⟨-, rfl⟩ := Outcome.returned.inj run
    rw [stepShowsOrder_iff fetched, loadsNarrow_single _ single]
    rintro ⟨-, -, narrow, -⟩
    exact absurd narrow (by decide)
  · obtain ⟨-, rfl⟩ := Outcome.returned.inj (first.symm.trans run)
    have next := fetches_of_accessible host
      (p := (armLoadStore host (afterFetch (oneWord 8 0xE5910000)) 0xE5910000).2)
      (by decide +kernel)
    rw [stepShowsOrder_iff next]
    exact not_loadsNarrow_of_not_transfer _ (by decide +kernel)

/-- LDRB r0, [r1, #3] (0xE5D10003) loads its own highest byte, 0xE5. -/
theorem ldrb_showsOrder
    : ((armSteps ((Host.plain .little).withOrder .little) 1 (oneWord 4 0xE5D10003)).register 0
        = 0xE5)
      ∧ ((armSteps ((Host.plain .little).withOrder .big) 1 (oneWord 4 0xE5D10003)).register 0
        = 0xE5000000)
      ∧ ¬ ∀ n,
          armSteps ((Host.plain .little).withOrder .big) n (oneWord 4 0xE5D10003)
            = armSteps ((Host.plain .little).withOrder .little) n (oneWord 4 0xE5D10003) := by
  refine ⟨by decide +kernel, by decide +kernel, fun same => ?_⟩
  have register := congrArg (fun outcome => outcome.register 0) (same 1)
  exact absurd register (by decide +kernel)

end Armator
