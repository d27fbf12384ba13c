import Armator.Architecture.DebugTarget
import Armator.Correctness.RegisterAccess

/-! What the simulated processor is for a debugger, and what the commands that run no instruction make
of it.
-/

namespace Armator.Gdb

open CText

/-- What an exception number is reported as. -/
def stopReason (exception : Int) : StopReason :=
  if exception = ArmException.UNDEFINED_INSTRUCTION then .undefinedInstruction
  else if exception = ArmException.PREFETCH_ABORT ∨ exception = ArmException.DATA_ABORT then .abort
  else .trap

/-- The byte of an address inside memory. -/
def byteIn (mem : Memory) (address : BitVec 32) : Option (BitVec 8) :=
  if address.toNat < mem.size then some (mem.data address.toNat) else none

/-- What a debugger sees. -/
def GdbProtocolData.target (gdb : GdbProtocolData) : Target where
  register number := reportedRegister gdb.arm number
  status := armReadCpsr gdb.arm
  byte := byteIn gdb.arm.mem
  stopped := stopReason gdb.targetException

end Armator.Gdb
