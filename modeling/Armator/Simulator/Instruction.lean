import Armator.Simulator.DataProcessing
import Armator.Simulator.LoadStore

/-! `arm_branch_other.c` and `arm_instruction.c`: the remaining decoders, the dispatch on
the instruction class and one step of the processor.
-/

namespace Armator

/-- How a call ends: it returns an `int` and leaves a processor state, or the whole process
exits.
-/
inductive Outcome where
  | returned (result : Int) (p : ArmCore)
  | exited (status : Int)

/-- The outcome of a decoder that always returns. -/
def Outcome.ofReturn (result : Int × ArmCore) : Outcome :=
  .returned result.1 result.2

/-- `arm_branch`; the mask for a clear bit 23 shifts the `int` `~0` right, which keeps its
sign.
-/
def armBranch (p : ArmCore) (ins : BitVec 32) : Int × ArmCore :=
  let L : BitVec 8 := (getBit ins 24).setWidth 8
  if conditionPassed (armReadCpsr p) ins then
    let p := if L = 1 then armWriteRegister p 14 (armReadRegister p 15 - 4) else p
    let val :=
      if getBit ins 23 ≠ 0 then ins ||| (~~~0#32 <<< 23)
      else ins &&& (~~~0#32).sshiftRight (32 - 23)
    let val := val <<< 2
    (0, armWriteRegister p 15 (armReadRegister p 15 + val))
  else (0, p)

def armCoprocessorOthersSwi (p : ArmCore) (ins : BitVec 32) : Outcome :=
  if getBit ins 24 ≠ 0 then
    -- the end of the simulation
    if ins &&& 0xFFFFFF = 0x123456 then .exited 0
    else .returned ArmException.SOFTWARE_INTERRUPT p
  else .returned ArmException.UNDEFINED_INSTRUCTION p

/-- The `switch` of `arm_execute_instruction` on bits 27 to 25: the outcome of the decoder it
calls, or nothing in the `default` case.
-/
def classDecoder (host : Host) (p : ArmCore) (ins : BitVec 32) (champ : BitVec 8)
    : Option Outcome :=
  match champ.toNat with
  | 0 =>
      if getBits ins 7 4 = 0b1011 then some (.ofReturn (armLoadStoreHalf host p ins))
      else some (.ofReturn (armDataProcessingShift host p ins))
  | 1 => some (.ofReturn (armDataProcessingShift host p ins))
  | 2 | 3 => some (.ofReturn (armLoadStore host p ins))
  | 4 => some (.ofReturn (armLoadStoreMultiple host p ins))
  | 5 => some (.ofReturn (armBranch p ins))
  | 6 => some (.ofReturn (armCoprocessorLoadStore p ins))
  | 7 => some (armCoprocessorOthersSwi p ins)
  | _ => none

/-- `arm_execute_instruction`: what the decoder returned is dropped. -/
def armExecuteInstruction (host : Host) (p : ArmCore) : Outcome :=
  -- `ins` is not initialized, and not used when the fetch leaves it so
  let (result, ins, p) := armFetch host p 0
  if result ≠ 0 then .returned 1 p
  else
    let champ := (getBits ins 27 25).setWidth 8
    match classDecoder host p ins champ with
    | some (.returned _ p) => .returned 0 p
    | some (.exited status) => .exited status
    | none => .returned 1 p

def armStep (host : Host) (p : ArmCore) : Outcome :=
  match armExecuteInstruction host p with
  | .returned result p =>
      .returned result (if result ≠ 0 then armException p (BitVec.ofInt 8 result) else p)
  | .exited status => .exited status

end Armator
