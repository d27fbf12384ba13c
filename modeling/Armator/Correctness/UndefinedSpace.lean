import Armator.Correctness.DataAccesses
import Armator.Simulator.GdbProtocol

/-! The undefined instruction space is not told apart from the loads and stores: its words are
executed as transfers with a register offset, the breakpoints of gdb as loads of a byte.
-/

namespace Armator

/-- The words of class 3 with bit 4 set. -/
def InUndefinedSpace (ins : BitVec 32) : Prop :=
  insClass ins = 3 ∧ ins.getLsbD 4 = true

instance (ins : BitVec 32) : Decidable (InUndefinedSpace ins) :=
  inferInstanceAs (Decidable (_ ∧ _))

/-- The words that gdb places at a breakpoint and `cont` recognises. -/
def IsBreakpoint (ins : BitVec 32) : Prop :=
  ins &&& 0xFFF000F0 = 0xE7F000F0

instance (ins : BitVec 32) : Decidable (IsBreakpoint ins) :=
  inferInstanceAs (Decidable (_ = _))

/-- The instruction was reported as undefined and changed no more than the pc. -/
def UndefinedWithoutEffect (p : ArmCore) (outcome : Outcome) : Prop :=
  ∃ q,
    outcome = .returned ArmException.UNDEFINED_INSTRUCTION q
    ∧ (∀ reg, reg < 15 → readRegister q.reg reg = readRegister p.reg reg)
    ∧ armReadCpsr q = armReadCpsr p
    ∧ q.mem = p.mem

section Breakpoints

variable {ins : BitVec 32} (breakpoint : IsBreakpoint ins)

include breakpoint

/-- The bits under the mask are those of the pattern. -/
theorem IsBreakpoint.getLsbD {i : Nat} (masked : (0xFFF000F0 : BitVec 32).getLsbD i = true)
    : ins.getLsbD i = (0xE7F000F0 : BitVec 32).getLsbD i := by
  rw [← breakpoint, BitVec.getLsbD_and, masked, Bool.and_true]

theorem IsBreakpoint.inUndefinedSpace : InUndefinedSpace ins := by
  refine ⟨?_, breakpoint.getLsbD (by decide)⟩
  have pattern : insClass 0xE7F000F0 = 3 := by decide
  rw [← pattern, insClass, insClass, getBits_eq, getBits_eq]
  congr 2
  apply BitVec.eq_of_getLsbD_eq
  intro i hi
  rw [BitVec.getLsbD_extractLsb', BitVec.getLsbD_extractLsb', breakpoint.getLsbD]
  interval_cases i <;> decide

/-- A breakpoint is not conditional. -/
theorem IsBreakpoint.conditionPassed (cpsr : BitVec 32) : Armator.conditionPassed cpsr ins := by
  have field : ins &&& 0xf0000000 = 0xE0000000 := by
    have mask : (0xf0000000 : BitVec 32) = 0xFFF000F0 &&& 0xf0000000 := by decide
    rw [mask, ← BitVec.and_assoc, breakpoint]
    decide
  have always : armGetCond ins = some .AL := by
    rw [armGetCond, field]
    rfl
  rw [conditionPassed_eq, always]

end Breakpoints

/-- A step on such a word returns 0, with the state that the transfer leaves. -/
theorem armStep_ofUndefined {host : Host} {p : ArmCore} {ins : BitVec 32}
    (fetched : Fetches host p ins) (space : InUndefinedSpace ins)
    : armStep host p = .returned 0 (armLoadStore host (afterFetch p) ins).2 :=
  armStep_of_returned fetched (decoderOutcome_single host (afterFetch p) (.inr space.1))

/-- A breakpoint is the load of a byte. -/
theorem dataAccesses_of_breakpoint (host : Host) (p : ArmCore) {ins : BitVec 32}
    (breakpoint : IsBreakpoint ins)
    : ins.getLsbD 20 = true
      ∧ ∃ access, dataAccesses host p ins = [access] ∧ access.width = 1 := by
  have class3 := breakpoint.inUndefinedSpace.1
  have notHalf : ¬ IsHalfTransfer ins := fun half => absurd (half.1.symm.trans class3) (by decide)
  have isByte : ins.getLsbD 22 = true := breakpoint.getLsbD (by decide)
  refine ⟨breakpoint.getLsbD (by decide),
    { reg := (getBits ins 15 12).setWidth 8
      width := 1
      address := loadStoreAddress p ins (loadStoreIndex host p ins) },
    ?_, rfl⟩
  simp only [dataAccesses, breakpoint.conditionPassed, notHalf, class3, isByte, if_true, if_false,
    or_true]

/-- No word of the space is reported as undefined, and every breakpoint that gdb's step handler
meets is executed as the load of a byte and answered like a trap. Witness: the decoder looks at
bits 27 to 25 only, and the loads and stores return 0.
-/
theorem armStep_undefinedSpace (host : Host) (p : ArmCore) (ins : BitVec 32)
    (fetched : Fetches host p ins) (space : InUndefinedSpace ins)
    : ¬ UndefinedWithoutEffect p (armStep host p)
      ∧ (IsBreakpoint ins
        → ins.getLsbD 20 = true
          ∧ (∃ access, dataAccesses host (afterFetch p) ins = [access] ∧ access.width = 1)
          ∧ ∀ gdb : Gdb.GdbProtocolData,
              gdb.arm = p
              → Gdb.step host gdb
                = .replied
                    { arm := (armLoadStore host (afterFetch p) ins).2, targetException := 0 }
                    "S05") := by
  have stepped := armStep_ofUndefined fetched space
  refine ⟨?_, fun breakpoint => ?_⟩
  · rintro ⟨q, reported, -⟩
    rw [stepped] at reported
    exact absurd (Outcome.returned.inj reported).1 (by decide)
  · obtain ⟨load, access⟩ := dataAccesses_of_breakpoint host (afterFetch p) breakpoint
    refine ⟨load, access, ?_⟩
    rintro gdb rfl
    rw [Gdb.step, stepped]
    rfl

/-- The breakpoint 0xE7F000F0 at address 0 is not reported as undefined. -/
theorem breakpoint_notUndefined
    : ¬ UndefinedWithoutEffect (oneWord 4 0xE7F000F0)
          (armStep (.plain .little) (oneWord 4 0xE7F000F0)) :=
  (armStep_undefinedSpace (.plain .little) (oneWord 4 0xE7F000F0) 0xE7F000F0
    (fetches_oneWord _ (by decide) _) (by decide +kernel)).1

/-- It loads its own lowest byte to r0, and gdb's step handler answers S05. -/
theorem breakpoint_changesRegister
    : let p := oneWord 4 0xE7F000F0
      Fetches (.plain .little) p 0xE7F000F0
      ∧ InUndefinedSpace 0xE7F000F0
      ∧ IsBreakpoint 0xE7F000F0
      ∧ readRegister p.reg 0 = 0
      ∧ ∃ gdb,
          Gdb.step (.plain .little) { arm := p, targetException := 0 } = .replied gdb "S05"
          ∧ readRegister gdb.arm.reg 0 = 0xF0 := by
  have fetched : Fetches (.plain .little) (oneWord 4 0xE7F000F0) 0xE7F000F0 :=
    fetches_oneWord _ (by decide) _
  have space : InUndefinedSpace 0xE7F000F0 := by decide +kernel
  refine ⟨fetched, space, by decide, by decide +kernel,
    { arm := (armLoadStore (.plain .little) (afterFetch (oneWord 4 0xE7F000F0)) 0xE7F000F0).2
      targetException := 0 }, ?_, by decide +kernel⟩
  rw [Gdb.step, armStep_ofUndefined fetched space]
  rfl

end Armator
