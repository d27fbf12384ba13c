import Armator.Correctness.RequestReplies
import Armator.Lib.TracedPieces

/-! What the calls of `gdb_protocol.c` consist of. So a request other than `k` that is answered has
stayed inside the packet and left the connection open, however it was formed, and what is done
outside the lock does not depend on the processor.
-/

namespace Armator.Gdb

open CText Traced

/-- Another processor for the session. -/
def Session.withArm (arm : ArmCore) (gdb : Session) : Session :=
  { gdb with arm }

/-- The call is put together of writes to the packet, events that keep the connection open, and uses
of the session, among them uses of the processor only if it `usesArm`.
-/
inductive Consists (usesArm : Prop) : {α : Type} → Act α → Prop
  | pure {α : Type} (a : α) : Consists usesArm (pure a)
  | log {event : Event} (keeps : KeepsOpen event) : Consists usesArm (log event)
  | stop {α : Type} (reason : Stop) : Consists usesArm (stop reason : Act α)
  | write (index : Nat) (c : BitVec 8) : Consists usesArm (writePacket index c)
  | modify {f : Session → Session}
      (same : usesArm ∨ ∀ arm gdb, f (gdb.withArm arm) = (f gdb).withArm arm)
      : Consists usesArm (modify f)
  | look {α : Type} {f : Session → Act α} (same : usesArm ∨ ∀ arm gdb, f (gdb.withArm arm) = f gdb)
      (next : ∀ gdb, Consists usesArm (f gdb))
      : Consists usesArm (get >>= f)
  | bind {α β : Type} {x : Act α} {f : α → Act β} (first : Consists usesArm x)
      (second : ∀ a, Consists usesArm (f a))
      : Consists usesArm (x >>= f)

namespace Consists

variable {usesArm : Prop}

theorem each {Item : Type} {items : List Item} {body : Item → Act Unit}
    (all : ∀ item, Consists usesArm (body item))
    : Consists usesArm (each items body) := by
  induction items with
  | nil => exact pure ()
  | cons item rest ih => exact (all item).bind fun _ => ih

/-- A call that ends has logged what keeps the connection open: a write outside the packet does not
return. By induction on what the call consists of.
-/
theorem keepsOpen {α : Type} {x : Act α} (consists : Consists usesArm x)
    : EndsWithin KeepsOpen x := by
  induction consists with
  | pure a => exact endsWithin_pure a
  | log keeps => exact endsWithin_log keeps
  | stop reason => exact endsWithin_stop reason
  | write index c =>
      rw [writePacket]
      by_cases inside : index < MAX_PACKET_SIZE
      · have isAllowed : KeepsOpen (.write index) := inside
        rw [if_pos inside]
        exact (endsWithin_log isAllowed).bind fun _ => endsWithin_modify _
      · intro s a t ended
        rw [if_neg inside] at ended
        cases ended
  | modify same => exact endsWithin_modify _
  | look same next ih => exact endsWithin_get.bind ih
  | bind first second ihFirst ihSecond => exact ihFirst.bind ihSecond

/-- A call that does not use the processor does not notice another one. -/
theorem blind {α : Type} {x : Act α} (consists : Consists False x) (arm : ArmCore)
    : Blind (Session.withArm arm) x := by
  induction consists with
  | pure a => exact blind_pure a
  | log keeps => exact blind_log _
  | stop reason => exact blind_stop reason
  | write index c =>
      refine (blind_log _).bind fun _ => ?_
      split
      · exact blind_modify fun _ => rfl
      · exact blind_stop _
  | modify same => exact blind_modify (same.resolve_left id arm)
  | look same next ih => exact blind_get_bind (same.resolve_left id arm) ih
  | bind first second ihFirst ihSecond => exact ihFirst.bind ihSecond

-----------------------------------------------------------------------------------------
-- Calls that any handler makes
-----------------------------------------------------------------------------------------

theorem unparsed : Consists usesArm (Traced.log .unparsed : Act Unit) :=
  log (show KeepsOpen .unparsed from trivial)

theorem rioWriten (data : List (BitVec 8)) : Consists usesArm (rioWriten data) :=
  modify (.inr fun _ _ => rfl)

theorem writeText (index : Nat) (s : List (BitVec 8)) : Consists usesArm (writeText index s) :=
  each fun (c, i) => write i c

theorem gdbTransmitPacket : Consists usesArm gdbTransmitPacket :=
  look (.inr fun _ _ => rfl) fun _ => rioWriten _

theorem gdbSendBuffer : Consists usesArm gdbSendBuffer := by
  refine (write _ _).bind fun _ => look (.inr fun _ _ => rfl) fun gdb => (write _ _).bind fun _ =>
    (writeText _ _).bind fun _ => (write _ _).bind fun _ => ?_
  exact (modify (.inr fun _ _ => rfl)).bind fun _ => gdbTransmitPacket

theorem gdbSendData (data : List (BitVec 8)) : Consists usesArm (gdbSendData data) :=
  (writeText _ _).bind fun _ => gdbSendBuffer

theorem readString (request : List (BitVec 8)) (position : Nat)
    : Consists usesArm (readString request position) :=
  (log (show KeepsOpen (.readString position) from trivial)).bind fun _ => pure _

theorem readByte (request : List (BitVec 8)) (position : Nat)
    : Consists usesArm (readByte request position) :=
  (log (show KeepsOpen (.readByte position) from trivial)).bind fun _ => pure _

theorem useScanned (env : Env) (old : BitVec 32) (number : Option Int)
    : Consists usesArm (useScanned env old number) := by
  unfold Gdb.useScanned
  split
  · split
    · exact pure _
    · exact unparsed.bind fun _ => pure _
  · exact unparsed.bind fun _ => pure _

theorem useAtoi (env : Env) (number : Option Int) : Consists usesArm (useAtoi env number) := by
  unfold Gdb.useAtoi
  split
  · split
    · exact pure _
    · exact unparsed.bind fun _ => pure _
  · exact unparsed.bind fun _ => pure _

theorem readUint32Loop (env : Env) (request : List (BitVec 8)) (data n k : Nat) (value : BitVec 32)
    (bytes : Nat → BitVec 8)
    : Consists usesArm (readUint32Loop env request data n k value bytes) := by
  induction n generalizing k value bytes with
  | zero => exact pure _
  | succ n ih => exact (readString _ _).bind fun _ => (useScanned _ _ _).bind fun _ => ih _ _ _

theorem readUint32 (env : Env) (request : List (BitVec 8)) (data : Nat)
    : Consists usesArm (readUint32 env request data) :=
  (readUint32Loop _ _ _ _ _ _ _).bind fun _ => pure _

theorem writeUint32 (env : Env) (data : Nat) (value : BitVec 32)
    : Consists usesArm (writeUint32 env data value) :=
  (each fun _ => writeText _ _).bind fun _ => write _ _

theorem assertRegister (reg : BitVec 32) : Consists usesArm (assertRegister reg) := by
  unfold Gdb.assertRegister
  split
  · exact pure _
  · exact stop _

-----------------------------------------------------------------------------------------
-- Handlers
-----------------------------------------------------------------------------------------

/-- What reads the session may use its processor. -/
theorem looking {α : Type} {f : Session → Act α} (next : ∀ gdb, Consists True (f gdb))
    : Consists True (get >>= f) :=
  look (.inl trivial) next

theorem changing (f : Session → Session) : Consists True (Traced.modify f) :=
  modify (.inl trivial)

theorem sendStopReason : Consists True sendStopReason :=
  looking fun _ => gdbSendData _

theorem stepArm (env : Env) : Consists True (stepArm env) := by
  refine looking fun gdb => ?_
  cases armStep env.host gdb.arm with
  | returned result arm => exact changing _
  | exited status => exact stop _

theorem contLoop (env : Env) (fuel : Nat) (instruction : BitVec 32)
    : Consists True (contLoop env fuel instruction) := by
  induction fuel generalizing instruction with
  | zero => exact stop _
  | succ fuel ih =>
      refine looking fun gdb => ?_
      dsimp only
      split
      · exact pure _
      · exact (stepArm env).bind fun _ => ih _

theorem query (request : List (BitVec 8)) (data : Nat) : Consists True (query request data) := by
  refine (readString _ _).bind fun s => ?_
  repeat' split
  all_goals exact gdbSendData _

theorem readGeneralRegisters (env : Env) : Consists True (readGeneralRegisters env) := by
  refine looking fun _ => (each fun _ => writeUint32 _ _ _).bind fun _ =>
    (writeUint32 _ _ _).bind fun _ => (each fun _ => writeText _ _).bind fun _ => ?_
  exact (writeText _ _).bind fun _ => (writeUint32 _ _ _).bind fun _ => gdbSendBuffer

theorem readRegisterRequest (env : Env) (request : List (BitVec 8)) (data : Nat)
    : Consists True (readRegisterRequest env request data) :=
  (readString _ _).bind fun _ => (useAtoi _ _).bind fun _ => (assertRegister _).bind fun _ =>
    looking fun _ => (writeUint32 _ _ _).bind fun _ => gdbSendBuffer

theorem setThread (env : Env) (request : List (BitVec 8)) (data : Nat)
    : Consists True (setThread env request data) := by
  refine (readByte _ _).bind fun type => (readString _ _).bind fun s => ?_
  split
  · refine (useAtoi _ _).bind fun value => ?_
    split <;> exact gdbSendData _
  · exact gdbSendData _

theorem writeGeneralRegisters (env : Env) (request : List (BitVec 8)) (data : Nat)
    : Consists True (writeGeneralRegisters env request data) := by
  refine (each fun _ => (readUint32 _ _ _).bind fun _ => changing _).bind fun _ =>
    (each fun _ => (readUint32 _ _ _).bind fun _ => pure _).bind fun _ => ?_
  exact (readUint32 _ _ _).bind fun _ => (changing _).bind fun _ => gdbSendData _

theorem writeRegisterRequest (env : Env) (request : List (BitVec 8)) (data : Nat)
    : Consists True (writeRegisterRequest env request data) := by
  refine (readString _ _).bind fun s => ?_
  split
  · exact stop _
  · exact (readUint32 _ _ _).bind fun _ => (useScanned _ _ _).bind fun _ =>
      (assertRegister _).bind fun _ => (changing _).bind fun _ => gdbSendData _

theorem readMemoryLoop (size : Nat) (address : BitVec 32) (position : Nat)
    : Consists True (readMemoryLoop size address position) := by
  induction size generalizing address position with
  | zero => exact pure _
  | succ size ih =>
      refine looking fun gdb => ?_
      dsimp only
      split
      · exact (writeText _ _).bind fun _ => ih _ _
      · exact pure _

theorem readMemory (env : Env) (request : List (BitVec 8)) (data : Nat)
    : Consists True (readMemory env request data) := by
  refine (readString _ _).bind fun s => (write _ _).bind fun _ =>
    (useScanned _ _ _).bind fun size => ?_
  split
  · exact gdbSendBuffer
  · exact (useScanned _ _ _).bind fun _ => (readMemoryLoop _ _ _).bind fun _ => gdbSendBuffer

theorem writeMemoryLoop (request : List (BitVec 8)) (size : Nat) (address : BitVec 32)
    (content : Nat)
    : Consists True (writeMemoryLoop request size address content) := by
  induction size generalizing address content with
  | zero => exact pure _
  | succ size ih =>
      refine (readByte _ _).bind fun c => (readByte _ _).bind fun d => looking fun gdb =>
        (changing _).bind fun _ => ?_
      have next (result : Int) (content : Nat)
          : Consists True
              (if result = 0 then Gdb.writeMemoryLoop request size (address + 1) (content + 1)
                else Pure.pure false) := by
        split
        · exact ih _ _
        · exact pure _
      exact next _ _

theorem writeMemoryBinary (env : Env) (request : List (BitVec 8)) (data : Nat)
    : Consists True (writeMemoryBinary env request data) := by
  have reply (ok : Bool)
      : Consists True
          (if ok then Gdb.gdbSendData (text "OK") else Gdb.gdbSendData (text "E02")) := by
    cases ok <;> exact gdbSendData _
  refine (readString _ _).bind fun s => (useScanned _ _ _).bind fun address =>
    (useScanned _ _ _).bind fun size => looking fun gdb => ?_
  dsimp only
  split
  · exact (pure _).bind reply
  split
  · exact (pure _).bind reply
  split
  · exact (stop _).bind reply
  · exact (writeMemoryLoop _ _ _ _).bind reply

/-- Every handler but the one of `k`. -/
theorem handler {env : Env} {index : BitVec 8} {handle : List (BitVec 8) → Nat → Act Unit}
    (found : handler env index = some handle) (notKill : index ≠ ascii 'k')
    (packet : List (BitVec 8)) (data : Nat)
    : Consists True (handle packet data) := by
  cases entry_of_handler found with
  | cont => exact (contLoop _ _ _).bind fun _ => sendStopReason
  | killRequest => exact absurd rfl notKill
  | query => exact query _ _
  | readGeneralRegisters => exact readGeneralRegisters env
  | readMemory => exact readMemory env _ _
  | readRegister => exact readRegisterRequest env _ _
  | reason => exact sendStopReason
  | setThread => exact setThread env _ _
  | step => exact (stepArm env).bind fun _ => sendStopReason
  | writeGeneralRegisters => exact writeGeneralRegisters env _ _
  | writeMemoryBinary => exact writeMemoryBinary env _ _
  | writeRegister => exact writeRegisterRequest env _ _

end Consists

end Armator.Gdb
