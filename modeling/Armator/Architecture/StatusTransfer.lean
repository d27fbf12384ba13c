import Armator.Simulator.Core

/-! MSR with an immediate operand: which bits of which status register it writes. -/

namespace Armator

open PsrMask

/-- The bytes that the field bits 16 to 19 select. -/
def byteMask (ins : BitVec 32) : BitVec 32 :=
  (if ins.getLsbD 16 then 0x000000FF else 0) ||| (if ins.getLsbD 17 then 0x0000FF00 else 0)
  ||| (if ins.getLsbD 18 then 0x00FF0000 else 0) ||| (if ins.getLsbD 19 then 0xFF000000 else 0)

/-- An operand that may not be written: the execution state to the CPSR in a privileged mode, or
anything to an SPSR that the mode has not.
-/
def MsrRefused (p : ArmCore) (ins operand : BitVec 32) : Prop :=
  if ins.getLsbD 22 then ¬ armCurrentModeHasSpsr p
  else armInAPrivilegedMode p ∧ operand &&& StateMask ≠ 0

instance (p : ArmCore) (ins operand : BitVec 32) : Decidable (MsrRefused p ins operand) := by
  unfold MsrRefused
  infer_instance

/-- The bits that an accepted instruction writes. -/
def msrMask (p : ArmCore) (ins : BitVec 32) : BitVec 32 :=
  byteMask ins
  &&& if ins.getLsbD 22 then UserMask ||| PrivMask ||| StateMask
      else if armInAPrivilegedMode p then UserMask ||| PrivMask
      else UserMask

/-- A status register after MSR. -/
def msrValue (p : ArmCore) (ins operand old : BitVec 32) : BitVec 32 :=
  (old &&& ~~~(msrMask p ins)) ||| (operand &&& msrMask p ins)

/-- What MSR returns, and the processor it leaves. -/
def msr (p : ArmCore) (ins operand : BitVec 32) : Int × ArmCore :=
  if MsrRefused p ins operand then (ArmException.UNDEFINED_INSTRUCTION, p)
  else if ins.getLsbD 22 then (0, armWriteSpsr p (msrValue p ins operand (armReadSpsr p)))
  else (0, armWriteCpsr p (msrValue p ins operand (armReadCpsr p)))

end Armator
