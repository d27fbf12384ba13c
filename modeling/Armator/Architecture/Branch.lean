import Armator.Simulator.Core

/-! Branches as the architecture defines them. -/

namespace Armator

/-- The target of a branch at address `place`: its 24-bit offset counts words, with its sign, from
the address plus 8.
-/
def branchTarget (place ins : BitVec 32) : BitVec 32 :=
  place + 8 + 4 * (ins.extractLsb' 0 24).signExtend 32

/-- A branch links if bit 24 is set: r14 is then the address of the next instruction. -/
def branchLink (place ins r14 : BitVec 32) : BitVec 32 :=
  if ins.getLsbD 24 then place + 4 else r14

end Armator
