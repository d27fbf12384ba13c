import Armator.Simulator.Instruction

/-! `gdb_protocol.c`: the step request and the reason the target stopped for. -/

namespace Armator.Gdb

/-- The part of `struct gdb_protocol_data` that a step works on. -/
structure GdbProtocolData where
  arm : ArmCore
  targetException : Int

/-- What a request handler ends with: its data and the reply it sends, or the process has
exited below it.
-/
inductive Handled where
  | replied (gdb : GdbProtocolData) (data : String)
  | exited (status : Int)

/-- The data that `gdb_send_stop_reason` sends. -/
def gdbSendStopReason (gdb : GdbProtocolData) : String :=
  if gdb.targetException = ArmException.UNDEFINED_INSTRUCTION then "S04"
  else if gdb.targetException = ArmException.PREFETCH_ABORT
      ∨ gdb.targetException = ArmException.DATA_ABORT then "S10"
  else "S05"

/-- The handler of the request `s`. -/
def step (host : Host) (gdb : GdbProtocolData) : Handled :=
  match armStep host gdb.arm with
  | .returned result arm =>
      let gdb := { gdb with arm, targetException := result }
      .replied gdb (gdbSendStopReason gdb)
  | .exited status => .exited status

end Armator.Gdb
