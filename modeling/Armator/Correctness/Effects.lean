import Armator.Correctness.DataAccesses
import Armator.Correctness.DataProcessingResults

/-! What the instructions of a program can do to the processor: write registers, the condition
flags and the T bit, and store to memory at the addresses of their accesses.
-/

namespace Armator

/-- The state changes by writes of these kinds, those to memory with a width and an address that
are `allowed`.
-/
inductive Effects (host : Host) (allowed : Nat → BitVec 32 → Prop) : ArmCore → ArmCore → Prop
  | refl (p : ArmCore) : Effects host allowed p p
  | trans {p q r : ArmCore} (first : Effects host allowed p q) (second : Effects host allowed q r)
    : Effects host allowed p r
  | countCycle (p : ArmCore) : Effects host allowed p { p with cycleCount := p.cycleCount + 1 }
  | writeRegister (p : ArmCore) (reg : BitVec 8) (value : BitVec 32)
    : Effects host allowed p (armWriteRegister p reg value)
  | writeUsrRegister (p : ArmCore) (reg : BitVec 8) (value : BitVec 32)
    : Effects host allowed p (armWriteUsrRegister p reg value)
  | writeFlags (p : ArmCore) (flags : Flags)
    : Effects host allowed p (armWriteCpsr p (flags.put (armReadCpsr p)))
  | writeT (p : ArmCore) (b : Bool)
    : Effects host allowed p (armWriteCpsr p (Bits.putBit (armReadCpsr p) CpsrBit.T b))
  | writeByte (p : ArmCore) {address : BitVec 32} (value : BitVec 8) (fits : allowed 1 address)
    : Effects host allowed p (armWriteByte p address value).2
  | writeHalf (p : ArmCore) {address : BitVec 32} (value : BitVec 16) (fits : allowed 2 address)
    : Effects host allowed p (armWriteHalf host p address value).2
  | writeWord (p : ArmCore) {address : BitVec 32} (value : BitVec 32) (fits : allowed 4 address)
    : Effects host allowed p (armWriteWord host p address value).2

namespace Effects

section Rules

variable {host : Host} {allowed : Nat → BitVec 32 → Prop} {p q r : ArmCore}

theorem of_flagsOnly (change : FlagsOnly p q) : Effects host allowed p q := by
  obtain ⟨flags, rfl⟩ := change
  exact writeFlags p flags

/-- The two ways in which the source writes the T bit. -/
theorem writeSelectedT (p : ArmCore) (test : Prop) [Decidable test]
    : Effects host allowed p
        (armWriteCpsr p
          (if test then setBit (armReadCpsr p) CpsrBit.T
          else clrBit (armReadCpsr p) CpsrBit.T)) := by
  split
  · exact writeT p true
  · exact writeT p false

theorem ite {test : Prop} [Decidable test] (first : Effects host allowed p q)
    (second : Effects host allowed p r)
    : Effects host allowed p (if test then q else r) := by
  split
  · exact first
  · exact second

/-- A loop whose body has only such effects has only such effects, by induction on its list. -/
theorem foldl {State Item : Type} (core : State → ArmCore) (body : State → Item → State)
    (kept : ∀ s item, Effects host allowed (core s) (core (body s item))) (items : List Item)
    (s : State)
    : Effects host allowed (core s) (core (items.foldl body s)) := by
  induction items generalizing s with
  | nil => exact refl _
  | cons item rest ih => exact (kept s item).trans (ih _)

end Rules

theorem applyWrite {host : Host} {allowed : Nat → BitVec 32 → Prop} (p : ArmCore)
    (write : Option (BitVec 8 × BitVec 32))
    : Effects host allowed p (applyWrite p write) := by
  cases write with
  | none => exact refl p
  | some write => exact writeRegister p write.1 write.2

section Decoders

variable {host : Host} {allowed : Nat → BitVec 32 → Prop} (p : ArmCore) (ins : BitVec 32)

/-- Witness: the opcode's register write and its change of the flags. -/
theorem armDataProcessingShift
    : Effects host allowed p (armDataProcessingShift host p ins).2 := by
  simp only [Armator.armDataProcessingShift, opcodeField_eq]
  split
  · split
    · exact refl p
    · obtain ⟨q, run, change⟩ := executeOpcode_eq p (Opcode.decode ins) (dpRd ins)
        (decodeOperand host p ins).2.1 (decodeOperand host p ins).2.2
        ((getBit ins 20).setWidth 8) ((getBit (armReadCpsr p) 28).setWidth 8)
      rw [dpRd] at run
      rw [run]
      exact (applyWrite p _).trans (of_flagsOnly change)
  · exact refl p

theorem loadStoreWriteBack (index address : BitVec 32)
    : Effects host allowed p (loadStoreWriteBack p ins index address) := by
  unfold Armator.loadStoreWriteBack
  refine trans ?_ (ite (writeUsrRegister _ _ _) (refl _))
  exact ite (ite (writeUsrRegister _ _ _) (writeRegister _ _ _)) (refl _)

/-- The base update leaves the condition as it was. -/
theorem armLoadStore (single : insClass ins = 2 ∨ insClass ins = 3)
    : Effects host (StoresAt host p ins) p (armLoadStore host p ins).2 := by
  have isLoad : getBit ins 20 = 1 ↔ ins.getLsbD 20 = true := getBit_eq_one_iff ins 20
  have isByte : getBit ins 22 = 1 ↔ ins.getLsbD 22 = true := getBit_eq_one_iff ins 22
  simp only [Armator.armLoadStore, armReadCpsr_loadStoreWriteBack, isLoad, isByte]
  have moved : Effects host (StoresAt host p ins) p _ :=
    loadStoreWriteBack p ins (loadStoreIndex host p ins)
      (loadStoreAddress p ins (loadStoreIndex host p ins))
  refine moved.trans ?_
  split
  · split
    · split
      · exact (writeRegister _ _ _).trans (writeSelectedT _ _)
      · exact writeRegister _ _ _
    · exact refl _
  · next notLoad =>
      split
      · next passes =>
          have store := Bool.eq_false_of_not_eq_true notLoad
          have fits : StoresAt host p ins _ _ := storesAt_single passes store single
          split
          · next byte =>
              rw [if_pos byte] at fits
              exact writeByte _ _ fits
          · next word =>
              rw [if_neg word] at fits
              exact writeWord _ _ fits
      · exact refl _

theorem multipleAddresses : Effects host allowed p (multipleAddresses p ins).2.2 := by
  unfold Armator.multipleAddresses
  simp only
  split <;> split <;> exact ite (writeRegister _ _ _) (refl _)

theorem ldmTransfer (s : MultipleState)
    : Effects host allowed s.p (ldmTransfer host ins s).p := by
  have loop : Effects host allowed s.p ((List.range 15).foldl (ldmBody host ins) s).p :=
    foldl MultipleState.p (ldmBody host ins) (fun s ri => by
      unfold ldmBody
      split
      · exact writeRegister _ _ _
      · exact refl _) (List.range 15) s
  simp only [Armator.ldmTransfer]
  split
  · exact (loop.trans (writeRegister _ _ _)).trans (writeSelectedT _ _)
  · exact loop

/-- The store loop writes to its slots, by induction on its list. -/
theorem foldl_stmStep (list : List Nat) (s : MultipleState)
    (fits : ∀ slot ∈ slots s.address list, allowed 4 slot.2)
    : Effects host allowed s.p (list.foldl (stmStep host) s).p := by
  induction list generalizing s with
  | nil => exact refl _
  | cons ri rest ih =>
      have first : Effects host allowed s.p (stmStep host s ri).p :=
        writeWord _ _ (fits (ri, s.address) List.mem_cons_self)
      exact first.trans (ih _ fun slot member => fits slot (List.mem_cons_of_mem _ member))

theorem armLoadStoreMultiple (class4 : insClass ins = 4)
    : Effects host (StoresAt host p ins) p (armLoadStoreMultiple host p ins).2 := by
  have isLoad : getBit ins 20 = 1 ↔ ins.getLsbD 20 = true := getBit_eq_one_iff ins 20
  have checked {test : Prop} [Decidable test] {q : ArmCore}
      (same : Effects host (StoresAt host p ins) p q)
      : Effects host (StoresAt host p ins) p (if test then ((1 : Int), q) else (0, q)).2 := by
    split <;> exact same
  have moved : Effects host (StoresAt host p ins) p (Armator.multipleAddresses p ins).2.2 :=
    multipleAddresses p ins
  simp only [Armator.armLoadStoreMultiple, armReadCpsr_multipleAddresses, isLoad]
  refine checked (moved.trans ?_)
  split
  · next passes =>
      split
      · exact ldmTransfer ins { p := _, address := _, value := 0 }
      · next notLoad =>
          rw [stmTransfer_eq_foldl]
          have store := Bool.eq_false_of_not_eq_true notLoad
          exact foldl_stmStep (loopList ins)
            { p := _, address := (Armator.multipleAddresses p ins).1, value := 0 }
            fun slot member => storesAt_multiple passes store class4 member
  · exact refl _

theorem halfAddress : Effects host allowed p (halfAddress p ins).2 := by
  unfold Armator.halfAddress
  simp only
  refine trans ?_ (ite (writeRegister _ _ _) (refl _))
  split
  · exact refl p
  · exact writeRegister _ _ _

theorem armLoadStoreHalf (half : IsHalfTransfer ins)
    : Effects host (StoresAt host p ins) p (armLoadStoreHalf host p ins).2 := by
  have isLoad : getBit ins 20 = 1 ↔ ins.getLsbD 20 = true := getBit_eq_one_iff ins 20
  have moved : Effects host (StoresAt host p ins) p (Armator.halfAddress p ins).2 :=
    halfAddress p ins
  simp only [Armator.armLoadStoreHalf, armReadCpsr_halfAddress, isLoad]
  split
  · exact refl p
  · refine moved.trans ?_
    split
    · split
      · exact writeRegister _ _ _
      · exact refl _
    · next notLoad =>
        split
        · next passes =>
            exact writeHalf _ _
              (storesAt_half passes (Bool.eq_false_of_not_eq_true notLoad) half)
        · exact refl _

theorem armBranch : Effects host allowed p (armBranch p ins).2 := by
  unfold Armator.armBranch
  simp only
  split
  · exact (ite (writeRegister _ _ _) (refl _)).trans (writeRegister _ _ _)
  · exact refl p

end Decoders

/-- Witness: one case for each decoder; the last two leave the state they are given. -/
theorem decoderOutcome {host : Host} {p q : ArmCore} {ins : BitVec 32} {result : Int}
    (decodes : decoderOutcome host p ins = .returned result q)
    : Effects host (StoresAt host p ins) p q := by
  have ofReturn (returned : Int × ArmCore)
      (same : Effects host (StoresAt host p ins) p returned.2)
      (decodes : Outcome.ofReturn returned = .returned result q)
      : Effects host (StoresAt host p ins) p q := by
    obtain ⟨-, rfl⟩ := Outcome.returned.inj decodes
    exact same
  rcases insClass_cases ins with half | data | single | class4 | class5 | class6 | class7
  · rw [decoderOutcome_half host p half] at decodes
    exact ofReturn _ (armLoadStoreHalf p ins half) decodes
  · rw [decoderOutcome_data host p data] at decodes
    exact ofReturn _ (armDataProcessingShift p ins) decodes
  · rw [decoderOutcome_single host p single] at decodes
    exact ofReturn _ (armLoadStore p ins single) decodes
  · rw [decoderOutcome_multiple host p class4] at decodes
    exact ofReturn _ (armLoadStoreMultiple p ins class4) decodes
  · rw [decoderOutcome_branch host p class5] at decodes
    exact ofReturn _ (armBranch p ins) decodes
  · rw [decoderOutcome_coprocessor host p class6] at decodes
    exact ofReturn _ (refl p) decodes
  · rw [decoderOutcome_swi host p class7] at decodes
    split at decodes
    · split at decodes
      · exact Outcome.noConfusion decodes
      · exact ofReturn (_, p) (refl p) decodes
    · exact ofReturn (_, p) (refl p) decodes

theorem afterFetch {host : Host} {allowed : Nat → BitVec 32 → Prop} (p : ArmCore)
    : Effects host allowed p (afterFetch p) :=
  (countCycle p).trans (writeRegister _ _ _)

/-- A step whose fetch succeeds has these effects only. -/
theorem armStep {host : Host} {p q : ArmCore} {ins : BitVec 32} {result : Int}
    (fetched : Fetches host p ins) (returned : armStep host p = .returned result q)
    : Effects host (StoresAt host (Armator.afterFetch p) ins) p q := by
  cases outcome : Armator.decoderOutcome host (Armator.afterFetch p) ins with
  | returned code r =>
      rw [armStep_of_returned fetched outcome] at returned
      obtain ⟨-, rfl⟩ := Outcome.returned.inj returned
      exact (afterFetch p).trans (decoderOutcome outcome)
  | exited status =>
      rw [armStep_of_exited fetched outcome] at returned
      exact Outcome.noConfusion returned

end Effects

end Armator
