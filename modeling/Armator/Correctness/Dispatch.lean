import Armator.Simulator.Instruction

/-! What one step does around its decoder: the fetch, the choice of the decoder and the
return to the caller.
-/

namespace Armator

/-- The address that `arm_fetch` reads from. -/
def fetchAddress (p : ArmCore) : BitVec 32 :=
  armReadRegister p 15 - 4

/-- The state that `arm_fetch` leaves, whatever it reads. -/
def afterFetch (p : ArmCore) : ArmCore :=
  armWriteRegister { p with cycleCount := p.cycleCount + 1 } 15 (fetchAddress p + 4)

/-- The fetch succeeds and reads this word. -/
def Fetches (host : Host) (p : ArmCore) (ins : BitVec 32) : Prop :=
  armFetch host p 0 = (0, ins, afterFetch p)

/-- A fetch reads a word of memory and moves the pc on. -/
theorem armFetch_eq (host : Host) (p : ArmCore) (value : BitVec 32)
    : armFetch host p value
      = ((memoryReadWord host p.mem (fetchAddress p) value).1,
          (memoryReadWord host p.mem (fetchAddress p) value).2, afterFetch p) :=
  rfl

/-- A successful fetch reads an aligned word inside memory, in the memory's byte order. -/
theorem Fetches.accessible {host : Host} {p : ArmCore} {ins : BitVec 32}
    (fetched : Fetches host p ins)
    : p.mem.Accessible 4 (fetchAddress p)
      ∧ ins = ByteStore.load (p.mem.order host) 32 p.mem.data (fetchAddress p).toNat := by
  rw [Fetches, armFetch_eq, memoryReadWord_eq] at fetched
  split at fetched
  · next inside => exact ⟨inside, (congrArg (fun fetch => fetch.2.1) fetched).symm⟩
  · exact absurd (congrArg Prod.fst fetched) (show ¬ (-1 : Int) = 0 by decide)

/-- Such a word is fetched. -/
theorem fetches_of_accessible (host : Host) {p : ArmCore}
    (accessible : p.mem.Accessible 4 (fetchAddress p))
    : Fetches host p
        (ByteStore.load (p.mem.order host) 32 p.mem.data (fetchAddress p).toNat) := by
  rw [Fetches, armFetch_eq, memoryReadWord_eq, if_pos accessible]

@[simp]
theorem afterFetch_mem (p : ArmCore) : (afterFetch p).mem = p.mem := rfl

@[simp]
theorem armReadCpsr_afterFetch (p : ArmCore) : armReadCpsr (afterFetch p) = armReadCpsr p :=
  readCpsr_writeRegister _ _ _

@[simp]
theorem armReadSpsr_afterFetch (p : ArmCore) : armReadSpsr (afterFetch p) = armReadSpsr p :=
  readSpsr_writeRegister _ _ _

/-- Only the pc moves. -/
theorem readRegister_afterFetch (p : ArmCore) {reg : BitVec 8} (notPc : reg ≠ 15)
    : readRegister (afterFetch p).reg reg = readRegister p.reg reg := by
  rw [afterFetch, armWriteRegister_reg, readRegister_writeRegister,
    if_neg fun h => notPc h.1.symm]

theorem readRegister_afterFetch_pc (p : ArmCore)
    : readRegister (afterFetch p).reg 15 = fetchAddress p + 4 := by
  rw [afterFetch, armWriteRegister_reg, readRegister_writeRegister, if_pos (by decide)]

/-- At an aligned address an instruction reads the pc as its own address plus 8, and the next
fetch is from the word behind it. Witness: the mask on the pc keeps aligned words.
-/
theorem armReadRegister_pc_afterFetch (p : ArmCore)
    (aligned : (fetchAddress p).toNat % 4 = 0)
    : armReadRegister (afterFetch p) 15 = fetchAddress p + 8 := by
  have sum : fetchAddress p + 4 + 4 = fetchAddress p + 8 := by bv_omega
  have masked : (fetchAddress p + 8).toNat % 4 = 0 := by bv_omega
  simp only [armReadRegister, readRegister_afterFetch_pc, if_true, sum]
  exact and_pcMask_of_aligned _ masked

theorem fetchAddress_afterFetch (p : ArmCore) (aligned : (fetchAddress p).toNat % 4 = 0)
    : fetchAddress (afterFetch p) = fetchAddress p + 4 := by
  rw [fetchAddress, armReadRegister_pc_afterFetch p aligned]
  bv_omega

/-- A pc that holds the address of a fetch leaves it. -/
theorem fetchAddress_of_pc {p : ArmCore} {q : ArmCore}
    (pc : readRegister q.reg 15 = fetchAddress p)
    : fetchAddress q = fetchAddress p := by
  have masked (x : BitVec 32) : ((x &&& 0xFFFFFFFD) - 4 + 4) &&& 0xFFFFFFFD = x &&& 0xFFFFFFFD := by
    rw [BitVec.sub_add_cancel, BitVec.and_assoc, BitVec.and_self]
  have pcRegister
      : ∀ r : ArmCore, armReadRegister r 15 = (readRegister r.reg 15 + 4) &&& 0xFFFFFFFD :=
    fun _ => rfl
  rw [fetchAddress, pcRegister, pc, fetchAddress, pcRegister, masked]

/-- With bit 1 of the pc clear the next fetch is from there. -/
theorem fetchAddress_of_clear {p : ArmCore} (clear : (readRegister p.reg 15).getLsbD 1 = false)
    : fetchAddress p = readRegister p.reg 15 := by
  have moved : (readRegister p.reg 15 + 4).getLsbD 1 = false := by
    rw [BitVec.getLsbD, Nat.testBit_eq_decide_div_mod_eq] at clear ⊢
    have value := of_decide_eq_false clear
    have total : (readRegister p.reg 15 + 4).toNat = ((readRegister p.reg 15).toNat + 4) % 2 ^ 32 :=
      BitVec.toNat_add _ _
    rw [total]
    exact decide_eq_false (by omega)
  have pcRegister : armReadRegister p 15 = (readRegister p.reg 15 + 4) &&& 0xFFFFFFFD := rfl
  rw [fetchAddress, pcRegister, and_pcMask_of_bit _ moved, BitVec.add_sub_cancel]

theorem fetchAddress_of_aligned {p : ArmCore} (aligned : (readRegister p.reg 15).toNat % 4 = 0)
    : fetchAddress p = readRegister p.reg 15 := by
  refine fetchAddress_of_clear ?_
  rw [BitVec.getLsbD, Nat.testBit_eq_decide_div_mod_eq]
  exact decide_eq_false (by omega)

/-- The instruction class, bits 27 to 25. -/
def insClass (ins : BitVec 32) : BitVec 8 :=
  (getBits ins 27 25).setWidth 8

/-- There are eight classes. -/
theorem insClass_lt (ins : BitVec 32) : (insClass ins).toNat < 8 := by
  have field := (ins.extractLsb' 25 3).isLt
  simp only [insClass, getBits_eq, Nat.reduceSub, Nat.reduceAdd, BitVec.toNat_setWidth]
  omega

/-- The words that `arm_load_store_half` takes. -/
def IsHalfTransfer (ins : BitVec 32) : Prop :=
  insClass ins = 0 ∧ getBits ins 7 4 = 0b1011

instance (ins : BitVec 32) : Decidable (IsHalfTransfer ins) :=
  inferInstanceAs (Decidable (_ ∧ _))

/-- The words that `arm_data_processing_shift` takes. -/
def IsDataProcessing (ins : BitVec 32) : Prop :=
  (insClass ins = 0 ∧ getBits ins 7 4 ≠ 0b1011) ∨ insClass ins = 1

instance (ins : BitVec 32) : Decidable (IsDataProcessing ins) :=
  inferInstanceAs (Decidable (_ ∨ _))

/-- The outcome of the decoder that `arm_execute_instruction` calls. -/
def decoderOutcome (host : Host) (p : ArmCore) (ins : BitVec 32) : Outcome :=
  if IsHalfTransfer ins then .ofReturn (armLoadStoreHalf host p ins)
  else if IsDataProcessing ins then .ofReturn (armDataProcessingShift host p ins)
  else if insClass ins = 2 ∨ insClass ins = 3 then .ofReturn (armLoadStore host p ins)
  else if insClass ins = 4 then .ofReturn (armLoadStoreMultiple host p ins)
  else if insClass ins = 5 then .ofReturn (armBranch p ins)
  else if insClass ins = 6 then .ofReturn (armCoprocessorLoadStore p ins)
  else armCoprocessorOthersSwi p ins

/-- The `default` case is never taken. Witness: the eight values of the class. -/
theorem classDecoder_eq (host : Host) (p : ArmCore) (ins : BitVec 32)
    : classDecoder host p ins (insClass ins) = some (decoderOutcome host p ins) := by
  have bound := insClass_lt ins
  have class0 : classDecoder host p ins 0
      = if getBits ins 7 4 = 0b1011 then some (.ofReturn (armLoadStoreHalf host p ins))
        else some (.ofReturn (armDataProcessingShift host p ins)) := rfl
  have cases8 : insClass ins = 0 ∨ insClass ins = 1 ∨ insClass ins = 2 ∨ insClass ins = 3
      ∨ insClass ins = 4 ∨ insClass ins = 5 ∨ insClass ins = 6 ∨ insClass ins = 7 := by
    bv_omega
  rcases cases8 with h | h | h | h | h | h | h | h <;>
    simp only [decoderOutcome, IsHalfTransfer, IsDataProcessing, h]
  case inl =>
    rw [class0]
    by_cases half : getBits ins 7 4 = 0b1011
    · simp only [half, if_true, and_self]
    · simp only [half, if_false, and_false, ne_eq, not_false_eq_true, and_self, true_or, if_true]
  all_goals rfl

/-- Every word goes to one of the seven decoders. -/
theorem insClass_cases (ins : BitVec 32)
    : IsHalfTransfer ins ∨ IsDataProcessing ins ∨ (insClass ins = 2 ∨ insClass ins = 3)
      ∨ insClass ins = 4 ∨ insClass ins = 5 ∨ insClass ins = 6 ∨ insClass ins = 7 := by
  have bound := insClass_lt ins
  have class8 : insClass ins = 0 ∨ insClass ins = 1 ∨ insClass ins = 2 ∨ insClass ins = 3
      ∨ insClass ins = 4 ∨ insClass ins = 5 ∨ insClass ins = 6 ∨ insClass ins = 7 := by
    bv_omega
  rcases class8 with class0 | class1 | later
  · by_cases field : getBits ins 7 4 = 0b1011
    · exact .inl ⟨class0, field⟩
    · exact .inr (.inl (.inl ⟨class0, field⟩))
  · exact .inr (.inl (.inr class1))
  · exact .inr (.inr (or_assoc.mpr later))

section DecoderOutcome

variable (host : Host) (p : ArmCore) {ins : BitVec 32}

theorem decoderOutcome_half (half : IsHalfTransfer ins)
    : decoderOutcome host p ins = .ofReturn (armLoadStoreHalf host p ins) :=
  if_pos half

theorem decoderOutcome_data (data : IsDataProcessing ins)
    : decoderOutcome host p ins = .ofReturn (armDataProcessingShift host p ins) := by
  have notHalf : ¬ IsHalfTransfer ins := by
    rintro ⟨class0, field⟩
    rcases data with ⟨-, other⟩ | class1
    · exact other field
    · exact absurd (class0.symm.trans class1) (by decide)
  rw [decoderOutcome, if_neg notHalf, if_pos data]

/-- The classes from 2 on are told apart by their number alone. -/
theorem notLow {c : BitVec 8} (isClass : insClass ins = c) (notZero : c ≠ 0) (notOne : c ≠ 1)
    : ¬ IsHalfTransfer ins ∧ ¬ IsDataProcessing ins := by
  subst isClass
  refine ⟨fun half => notZero half.1, ?_⟩
  rintro (⟨class0, -⟩ | class1)
  · exact notZero class0
  · exact notOne class1

theorem notLow_of_single (single : insClass ins = 2 ∨ insClass ins = 3)
    : ¬ IsHalfTransfer ins ∧ ¬ IsDataProcessing ins := by
  rcases single with class2 | class3
  · exact notLow class2 (by decide) (by decide)
  · exact notLow class3 (by decide) (by decide)

theorem decoderOutcome_single (single : insClass ins = 2 ∨ insClass ins = 3)
    : decoderOutcome host p ins = .ofReturn (armLoadStore host p ins) := by
  have low := notLow_of_single single
  rw [decoderOutcome, if_neg low.1, if_neg low.2, if_pos single]

theorem decoderOutcome_multiple (isClass : insClass ins = 4)
    : decoderOutcome host p ins = .ofReturn (armLoadStoreMultiple host p ins) := by
  have low := notLow isClass (by decide) (by decide)
  rw [decoderOutcome, if_neg low.1, if_neg low.2, isClass]
  rfl

theorem decoderOutcome_branch (isClass : insClass ins = 5)
    : decoderOutcome host p ins = .ofReturn (armBranch p ins) := by
  have low := notLow isClass (by decide) (by decide)
  rw [decoderOutcome, if_neg low.1, if_neg low.2, isClass]
  rfl

theorem decoderOutcome_coprocessor (isClass : insClass ins = 6)
    : decoderOutcome host p ins = .ofReturn (armCoprocessorLoadStore p ins) := by
  have low := notLow isClass (by decide) (by decide)
  rw [decoderOutcome, if_neg low.1, if_neg low.2, isClass]
  rfl

/-- The last class either ends the process or returns a code and the state it was given. -/
theorem decoderOutcome_swi (isClass : insClass ins = 7)
    : decoderOutcome host p ins
      = if getBit ins 24 = 1 then
          if ins &&& 0xFFFFFF = 0x123456 then .exited 0
          else .returned ArmException.SOFTWARE_INTERRUPT p
        else .returned ArmException.UNDEFINED_INSTRUCTION p := by
  have low := notLow isClass (by decide) (by decide)
  have bit24 : getBit ins 24 ≠ 0 ↔ getBit ins 24 = 1 := by
    rcases getBit_cases ins 24 with bit | bit <;> rw [bit] <;> decide
  simp only [← bit24]
  rw [decoderOutcome, if_neg low.1, if_neg low.2, isClass]
  rfl

end DecoderOutcome

/-- A step whose decoder returns leaves the decoder's state and returns 0: the decoder's own
result is dropped.
-/
theorem armStep_of_returned {host : Host} {p q : ArmCore} {ins : BitVec 32} {result : Int}
    (fetched : Fetches host p ins)
    (decodes : decoderOutcome host (afterFetch p) ins = .returned result q)
    : armStep host p = .returned 0 q := by
  have decoded
      : classDecoder host (afterFetch p) ins ((getBits ins 27 25).setWidth 8)
        = some (.returned result q) :=
    (classDecoder_eq host (afterFetch p) ins).trans (congrArg some decodes)
  have execute : armExecuteInstruction host p = .returned 0 q := by
    simp only [armExecuteInstruction]
    rw [fetched]
    simp only [ne_eq, not_true_eq_false, if_false, decoded]
  rw [armStep, execute]
  rfl

/-- A step whose decoder ends the process ends it. -/
theorem armStep_of_exited {host : Host} {p : ArmCore} {ins : BitVec 32} {status : Int}
    (fetched : Fetches host p ins)
    (decodes : decoderOutcome host (afterFetch p) ins = .exited status)
    : armStep host p = .exited status := by
  have decoded
      : classDecoder host (afterFetch p) ins ((getBits ins 27 25).setWidth 8)
        = some (.exited status) :=
    (classDecoder_eq host (afterFetch p) ins).trans (congrArg some decodes)
  have execute : armExecuteInstruction host p = .exited status := by
    simp only [armExecuteInstruction]
    rw [fetched]
    simp only [ne_eq, not_true_eq_false, if_false, decoded]
  rw [armStep, execute]

/-- A step whose fetch fails returns 1, the number of a reset, and resets. -/
theorem armStep_of_failedFetch (host : Host) {p : ArmCore}
    (fails : ¬ p.mem.Accessible 4 (fetchAddress p))
    : armStep host p
      = .returned ArmException.RESET
          (armException (afterFetch p) (BitVec.ofInt 8 ArmException.RESET)) := by
  have execute : armExecuteInstruction host p = .returned 1 (afterFetch p) := by
    simp only [armExecuteInstruction, armFetch_eq, memoryReadWord_eq, fails, if_false]
    rw [if_pos (by decide)]
  rw [armStep, execute]
  rfl

/-- A fresh processor on a little-endian memory of `size` bytes with one word at address 0. -/
def oneWord (size : Nat) (ins : BitVec 32) : ArmCore :=
  armCreate (memoryCreate size 0 fun i => if i < 4 then ByteOrder.little.byteOf ins i else 0)

/-- Its first fetch reads that word, on any host. -/
theorem fetches_oneWord (host : Host) {size : Nat} (inside : 0 < size) (ins : BitVec 32)
    : Fetches host (oneWord size ins) ins := by
  have start : fetchAddress (oneWord size ins) = 0 := by
    change fetchAddress (oneWord 0 0) = 0
    decide +kernel
  have order : (oneWord size ins).mem.order host = .little :=
    Memory.order_eq_of_flag host _ (.inl rfl)
  have word : ByteStore.load .little 32 (oneWord size ins).mem.data 0 = ins := by
    refine (ByteOrder.ofBytes_congr .little (by decide) fun i hi => ?_).trans
      (ByteOrder.ofBytes_byteOf .little (by decide) ins)
    change (if 0 + i < 4 then ByteOrder.little.byteOf ins (0 + i) else 0) = _
    rw [if_pos (by omega), Nat.zero_add]
  have accessible : (oneWord size ins).mem.Accessible 4 0 := ⟨inside, rfl⟩
  rw [Fetches, armFetch_eq, memoryReadWord_eq, start, if_pos accessible, order]
  exact congrArg (fun value => ((0 : Int), value, afterFetch (oneWord size ins))) word

/-- The register that a call leaves, 0 when it does not return. -/
def Outcome.register (outcome : Outcome) (reg : BitVec 8) : BitVec 32 :=
  match outcome with
  | .returned _ p => readRegister p.reg reg
  | .exited _ => 0

end Armator
