import Armator.Correctness.Effects
import Armator.Simulator.Runs

/-! What no change of the processor touches: the mode field, the SPSR, and the size and byte
order of the memory.
-/

namespace Armator

/-- `q` has the mode field, the SPSR and the kind of memory of `p`. -/
structure SameMachine (p q : ArmCore) : Prop where
  mode : q.reg.mode = p.reg.mode
  spsr : armReadSpsr q = armReadSpsr p
  size : q.mem.size = p.mem.size
  flag : q.mem.isBigEndian = p.mem.isBigEndian

namespace SameMachine

theorem refl (p : ArmCore) : SameMachine p p :=
  ⟨rfl, rfl, rfl, rfl⟩

theorem trans {p q r : ArmCore} (first : SameMachine p q) (second : SameMachine q r)
    : SameMachine p r :=
  ⟨second.mode.trans first.mode, second.spsr.trans first.spsr, second.size.trans first.size,
    second.flag.trans first.flag⟩

theorem writeRegister (p : ArmCore) (reg : BitVec 8) (value : BitVec 32)
    : SameMachine p (armWriteRegister p reg value) :=
  ⟨writeRegister_mode _ _ _, armReadSpsr_armWriteRegister _ _ _, rfl, rfl⟩

/-- The user-register path writes like the plain one or not at all. -/
theorem writeUsrRegister (p : ArmCore) (reg : BitVec 8) (value : BitVec 32)
    : SameMachine p (armWriteUsrRegister p reg value) := by
  by_cases usr : p.reg.mode = Mode.USR
  · rw [armWriteUsrRegister, writeUsrRegister_of_usr _ _ _ usr]
    exact writeRegister p reg value
  · rw [armWriteUsrRegister, writeUsrRegister_of_not_usr _ _ _ usr]
    exact refl p

theorem writeCpsr (p : ArmCore) (value : BitVec 32) : SameMachine p (armWriteCpsr p value) :=
  ⟨rfl, armReadSpsr_armWriteCpsr _ _, rfl, rfl⟩

theorem writeByte (p : ArmCore) (address : BitVec 32) (value : BitVec 8)
    : SameMachine p (armWriteByte p address value).2 := by
  simp only [armWriteByte, memoryWriteByte_eq]
  split <;> exact ⟨rfl, rfl, rfl, rfl⟩

theorem writeHalf (host : Host) (p : ArmCore) (address : BitVec 32) (value : BitVec 16)
    : SameMachine p (armWriteHalf host p address value).2 := by
  simp only [armWriteHalf, memoryWriteHalf_eq]
  split <;> exact ⟨rfl, rfl, rfl, rfl⟩

theorem writeWord (host : Host) (p : ArmCore) (address value : BitVec 32)
    : SameMachine p (armWriteWord host p address value).2 := by
  simp only [armWriteWord, memoryWriteWord_eq]
  split <;> exact ⟨rfl, rfl, rfl, rfl⟩

/-- Nothing that an instruction does touches them. Witness: one case for each effect. -/
theorem of_effects {host : Host} {allowed : Nat → BitVec 32 → Prop} {p q : ArmCore}
    (effects : Effects host allowed p q)
    : SameMachine p q := by
  induction effects with
  | refl p => exact refl p
  | trans _ _ first second => exact first.trans second
  | countCycle p => exact ⟨rfl, rfl, rfl, rfl⟩
  | writeRegister p reg value => exact writeRegister p reg value
  | writeUsrRegister p reg value => exact writeUsrRegister p reg value
  | writeFlags p flags => exact writeCpsr p _
  | writeT p b => exact writeCpsr p _
  | writeByte p value _ => exact writeByte p _ value
  | writeHalf p value _ => exact writeHalf _ p _ value
  | writeWord p value _ => exact writeWord _ p _ value

theorem armException (p : ArmCore) (exception : BitVec 8)
    : SameMachine p (armException p exception) := by
  unfold Armator.armException
  split
  · exact (writeCpsr _ _).trans (writeUsrRegister _ _ _)
  · exact refl p

theorem afterFetch (p : ArmCore) : SameMachine p (afterFetch p) :=
  of_effects (Effects.afterFetch p : Effects (.plain .little) (fun _ _ => True) p _)

theorem armStep {host : Host} {p q : ArmCore} {result : Int}
    (returned : armStep host p = .returned result q)
    : SameMachine p q := by
  by_cases accessible : p.mem.Accessible 4 (fetchAddress p)
  · exact of_effects (Effects.armStep (fetches_of_accessible host accessible) returned)
  · rw [armStep_of_failedFetch host accessible] at returned
    obtain ⟨-, rfl⟩ := Outcome.returned.inj returned
    exact (afterFetch p).trans (armException _ _)

theorem moves {host : Host} {p q : ArmCore} (change : Moves host p q) : SameMachine p q := by
  cases change with
  | step returned => exact armStep returned
  | exception irq => exact armException p irq
  | writeRegister reg value => exact writeRegister p reg value
  | writeCpsr value => exact writeCpsr p value
  | writeMemory address value => exact writeByte p address value

end SameMachine

/-- A reachable processor is the same machine as a created one. -/
theorem sameMachine_of_reachable {host : Host} {p : ArmCore}
    (reached : (simulator host).Reachable p)
    : ∃ mem, SameMachine (armCreate mem) p := by
  obtain ⟨_, ⟨mem, rfl⟩, same⟩ := reached.related SameMachine.refl SameMachine.trans
    SameMachine.moves
  exact ⟨mem, same⟩

/-- The mode field is that of a created register file: user mode. -/
theorem mode_of_reachable {host : Host} {p : ArmCore} (reached : (simulator host).Reachable p)
    : p.reg.mode = Mode.USR := by
  obtain ⟨mem, same⟩ := sameMachine_of_reachable reached
  exact same.mode.trans (SameMachine.armException _ _).mode

/-- The mode bits of the CPSR. -/
def cpsrMode (p : ArmCore) : BitVec 8 :=
  ((armReadCpsr p).extractLsb' 0 5).setWidth 8

/-- The mode of the register file is the mode of the CPSR, and the tests and the user-register
accessors behave accordingly.
-/
structure ModeIsCpsrMode (p : ArmCore) : Prop where
  mode : getMode p.reg = cpsrMode p
  privileged : armInAPrivilegedMode p ↔ cpsrMode p ≠ Mode.USR
  hasSpsr : armCurrentModeHasSpsr p ↔ cpsrMode p ≠ Mode.USR ∧ cpsrMode p ≠ Mode.SYS
  readsUsr : ∀ reg, readUsrRegister p.reg reg = readRegister p.reg reg
  writesUsr : ∀ reg value, writeUsrRegister p.reg reg value = writeRegister p.reg reg value

/-- They agree in no reachable state: the register file stays in user mode, which its own test
takes for a privileged one.
-/
theorem not_modeIsCpsrMode_of_reachable (host : Host) (p : ArmCore)
    (reached : (simulator host).Reachable p)
    : ¬ ModeIsCpsrMode p := by
  intro agrees
  have usr := mode_of_reachable reached
  have field : cpsrMode p = Mode.USR := agrees.mode.symm.trans usr
  have privileged : armInAPrivilegedMode p := by
    rw [armInAPrivilegedMode, inAPrivilegedMode, usr]
    decide
  exact agrees.privileged.mp privileged field

/-- A processor in the user mode of the CPSR. -/
theorem userMode_disagrees
    : ¬ ModeIsCpsrMode (armWriteCpsr (armCreate (memoryCreate 4 0 fun _ => 0)) 0x10) := by
  have created : (simulator (.plain .little)).Reachable
      (armCreate (memoryCreate 4 0 fun _ => 0)) :=
    .of_init ⟨_, rfl⟩
  exact not_modeIsCpsrMode_of_reachable (.plain .little) _ (created.next (.writeCpsr _ _))

/-- A created processor is in supervisor mode for the CPSR and in user mode for the registers. -/
theorem armCreate_modes
    : (simulator (.plain .little)).Reachable (armCreate (memoryCreate 4 0 fun _ => 0))
      ∧ cpsrMode (armCreate (memoryCreate 4 0 fun _ => 0)) = Mode.SVC
      ∧ getMode (armCreate (memoryCreate 4 0 fun _ => 0)).reg = Mode.USR
      ∧ ¬ ModeIsCpsrMode (armCreate (memoryCreate 4 0 fun _ => 0)) := by
  refine ⟨.of_init ⟨_, rfl⟩, by decide +kernel, by decide +kernel, fun agrees => ?_⟩
  exact absurd agrees.mode (by decide +kernel)

end Armator
