import Armator.Simulator.Threads

/-! The pieces of the two threads make what the handlers and `arm_exception` do as a whole. -/

namespace Armator.Gdb

open CText Traced

theorem whole_contPieces (env : Env) (fuel : Nat) (instruction : BitVec 32)
    : (contPieces env fuel instruction).whole
      = contLoop env fuel instruction >>= fun _ => sendStopReason := by
  induction fuel generalizing instruction with
  | zero => rw [contPieces, Pieces.whole_single]; rfl
  | succ fuel ih =>
      rw [contPieces, Pieces.whole, contLoop, peek, bind_assoc, bind_assoc]
      congr 1
      funext gdb
      simp only [pure_bind]
      split
      · rw [Pieces.whole_single, pure_bind]
      · rw [Pieces.whole, bind_assoc]
        simp only [ih]

theorem whole_writeGeneralRegistersPieces (env : Env) (request : List (BitVec 8)) (data : Nat)
    : (writeGeneralRegistersPieces env request data).whole
      = writeGeneralRegisters env request data := by
  simp only [writeGeneralRegistersPieces, writeGeneralRegisters, Pieces.whole_each, Pieces.whole,
    Pieces.whole_single]

theorem writeMemoryLoop_succ (request : List (BitVec 8)) (size : Nat) (address : BitVec 32)
    (content : Nat)
    : writeMemoryLoop request (size + 1) address content
      = writeMemoryByte request address content >>= fun
        | some content => writeMemoryLoop request size (address + 1) content
        | none => pure false := by
  simp only [writeMemoryLoop, writeMemoryByte, bind_assoc, pure_bind]
  congr 1
  funext c
  congr 1
  funext d
  congr 1
  funext gdb
  congr 1
  funext _
  have ended : ∀ (result : Int) (next : Nat),
      (if result = 0 then writeMemoryLoop request size (address + 1) next else pure false)
        = match if result = 0 then some next else none with
          | some next => writeMemoryLoop request size (address + 1) next
          | none => pure false := by
    intro result next
    split <;> rfl
  exact ended _ _

theorem whole_writeMemoryPieces (request : List (BitVec 8)) (size : Nat) (address : BitVec 32)
    (content : Nat)
    : (writeMemoryPieces request size address content).whole
      = writeMemoryLoop request size address content >>= fun writeOk =>
        if writeOk then gdbSendData (text "OK") else gdbSendData (text "E02") := by
  induction size generalizing address content with
  | zero => rw [writeMemoryPieces, Pieces.whole_single, writeMemoryLoop, pure_bind]; rfl
  | succ size ih =>
      rw [writeMemoryPieces, Pieces.whole, writeMemoryLoop_succ, bind_assoc]
      congr 1
      funext next
      cases next with
      | none => rw [Pieces.whole_single, pure_bind]; rfl
      | some content => exact ih (address + 1) content

theorem whole_writeMemoryBinaryPieces (env : Env) (request : List (BitVec 8)) (data : Nat)
    : (writeMemoryBinaryPieces env request data).whole = writeMemoryBinary env request data := by
  simp only [writeMemoryBinaryPieces, writeMemoryBinary, Pieces.whole]
  congr 1
  funext s
  congr 1
  funext address
  congr 1
  funext size
  congr 1
  funext gdb
  split
  · rfl
  · split
    · rfl
    · cases (indexOf s (ascii ':')).map fun i => data + i + 1 with
      | none => rfl
      | some content => exact whole_writeMemoryPieces request size.toNat address content

theorem whole_requestPieces (env : Env) (index : BitVec 8) (packet : List (BitVec 8))
    : (requestPieces env index packet).whole = handling env index packet := by
  unfold requestPieces
  split
  · rename_i isCont
    subst isCont
    exact whole_contPieces env _ _
  split
  · rename_i isStep
    subst isStep
    rw [Pieces.whole]
    simp only [Pieces.whole_single]
    rfl
  split
  · rename_i isWrite
    subst isWrite
    exact whole_writeGeneralRegistersPieces env packet 2
  split
  · rename_i isBinary
    subst isBinary
    exact whole_writeMemoryBinaryPieces env packet 2
  · exact Pieces.whole_single _

theorem exceptionWrites_whole (irq : BitVec 8) (p : ArmCore)
    : (exceptionWrites irq).foldl (fun q write => write q) p = armException p irq := by
  rw [exceptionWrites, armException]
  split <;> rfl

/-- The cut at each access that changes the processor. -/
def perAccess (env : Env) : Cut env where
  request := requestPieces env
  request_whole := whole_requestPieces env
  exception := exceptionWrites
  exception_whole := exceptionWrites_whole

end Armator.Gdb
