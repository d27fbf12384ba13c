import Mathlib.Logic.Function.Basic

/-! The target as a debugger sees it, and what its commands read and write. -/

namespace Armator.Gdb

inductive StopReason where
  | undefinedInstruction
  | abort
  | trap
deriving DecidableEq

/-- Sixteen registers and the status register, the bytes of the addresses that there are, and why the
target stopped.
-/
@[ext]
structure Target where
  register : Fin 16 → BitVec 32
  status : BitVec 32
  byte : BitVec 32 → Option (BitVec 8)
  stopped : StopReason

/-- What it learns. -/
inductive Answer where
  | registers (value : Fin 16 → BitVec 32) (status : BitVec 32)
  | register (value : BitVec 32)
  | bytes (data : List (BitVec 8))
  | ok
  | badThread
  | badWrite
  | stopped (reason : StopReason)
  | feature (name : List (BitVec 8))
  | unsupported

namespace Target

/-- The register that is read for a number: one that is written with a letter is taken for 0. -/
def decimal (number : Fin 16) : Fin 16 :=
  if number < 10 then number else 0

/-- The target with bytes written from an address on, up to the first address that there is not. -/
def store (target : Target) : BitVec 32 → List (BitVec 8) → Target
  | _, [] => target
  | address, c :: rest =>
      if (target.byte address).isSome then
        store { target with byte := Function.update target.byte address (some c) } (address + 1) rest
      else target

end Target

end Armator.Gdb
