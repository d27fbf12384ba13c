import Armator.Correctness.Continuing
import Armator.Correctness.Conversations
import Armator.Correctness.DebugTarget
import Armator.Correctness.RequestSafety

/-! The requests of a debugger as texts, and the texts of their answers. -/

namespace Armator.Gdb

open CText Traced ByteStuffing

-----------------------------------------------------------------------------------------
-- Texts
-----------------------------------------------------------------------------------------

def StopReason.text : StopReason → List (BitVec 8)
  | .undefinedInstruction => CText.text "S04"
  | .abort => CText.text "S10"
  | .trap => CText.text "S05"

/-- The data of the reply. -/
def Answer.text (env : Env) : Answer → List (BitVec 8)
  | .registers value status =>
      (List.range 42).flatMap fun i =>
        if general : i < 16 then wordText env (value ⟨i, general⟩)
        else if i < 41 then CText.text "xxxxxxxx"
        else wordText env status
  | .register value => wordText env value
  | .bytes data => hexText data
  | .ok => CText.text "OK"
  | .badThread => CText.text "E01"
  | .badWrite => CText.text "E02"
  | .stopped reason => reason.text
  | .feature name => queryReply name
  | .unsupported => []

section Requests

variable {env : Env} {gdb after : GdbProtocolData} {payload reply : List (BitVec 8)}

end Requests

end Armator.Gdb
