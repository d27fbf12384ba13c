import Armator.Lib.TransitionSystem
import Armator.Simulator.Instruction

/-! What changes a processor while the simulator runs: its own steps, the requests of the
listener for interrupts, and the writes of the gdb request handlers.
-/

namespace Armator

/-- One change of the processor. A handler that writes several registers or bytes makes one
change for each.
-/
inductive Moves (host : Host) : ArmCore → ArmCore → Prop
  | step {p q result} (returned : armStep host p = .returned result q) : Moves host p q
  | exception (p : ArmCore) (irq : BitVec 8) : Moves host p (armException p irq)
  | writeRegister (p : ArmCore) (reg : BitVec 8) (value : BitVec 32)
    : Moves host p (armWriteRegister p reg value)
  | writeCpsr (p : ArmCore) (value : BitVec 32) : Moves host p (armWriteCpsr p value)
  | writeMemory (p : ArmCore) (address : BitVec 32) (value : BitVec 8)
    : Moves host p { p with mem := (memoryWriteByte p.mem address value).2 }

/-- Consecutive calls of `arm_step`: the last outcome, unless an earlier call ended the process. -/
def armSteps (host : Host) : Nat → ArmCore → Outcome
  | 0, p => .returned 0 p
  | n + 1, p =>
      match armSteps host n p with
      | .returned _ q => armStep host q
      | .exited status => .exited status

/-- The runs of the simulator start with a created processor. -/
def simulator (host : Host) : TransitionSystem ArmCore where
  init p := ∃ mem, p = armCreate mem
  step := Moves host

end Armator
