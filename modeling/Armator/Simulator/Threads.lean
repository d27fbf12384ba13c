import Armator.Lib.CriticalSection
import Armator.Lib.TracedPieces
import Armator.Simulator.Scanner

/-! `arm_simulator.c`: the thread that serves gdb and the one that receives interrupts, which share
the processor under one lock.
-/

namespace Armator.Gdb

open CText Traced CriticalSection

-----------------------------------------------------------------------------------------
-- The calls between tokens and the lock
-----------------------------------------------------------------------------------------

/-- The handler that `gdb_packet_analysis` calls for an index, with the index of the data. -/
def handling (env : Env) (index : BitVec 8) (packet : List (BitVec 8)) : Act Unit :=
  match handler env index with
  | some handle => handle packet 2
  | none => pure ()

/-- The packet with the NUL that `gdb_packet_analysis` puts behind the payload. -/
def terminated (packet : List (BitVec 8)) (length : Nat) : List (BitVec 8) :=
  packet.set (max 1 (length - 3)) 0

/-- `gdb_packet_analysis` up to its `pthread_mutex_lock`: the index of the handler that comes then. -/
def beforeLock (env : Env) (packet : List (BitVec 8)) (length : Nat) : Act (Option (BitVec 8)) := do
  let i := max 1 (length - 3)
  let check := checksum ((packet.take i).drop 1)
  let given ← useScanned env env.unset.given
    ((scanHex (stringAt packet (i + 1))).map Prod.fst)
  if check.setWidth 32 = given then do
    gdbSendAck
    let index := (terminated packet length).getD 1 0
    if (handler env index).isSome then pure (some index)
    else do
      gdbSendData []
      pure none
  else do
    gdbRequireRetransmission
    pure none

/-- A call that works on the session and returns something. -/
def calling {α : Type} (call : Act α) : Scan α := fun data =>
  { events := (call data.gdb).events.map .inSession
    result :=
      match (call data.gdb).result with
      | .ok (a, gdb) =>
          .ok (a, { data with gdb, closed := data.closed || (call data.gdb).events.contains .shutdown })
      | .error reason => .error (.inSession reason) }

/-- The action of a token up to the lock, with the handler and the packet that come then. -/
def beforeHandler (env : Env) (behind : List (BitVec 8))
    : Token → Scan (Option (BitVec 8 × List (BitVec 8)))
  | .packet yytext => do
      handleError
      log (.analysis yytext)
      let data ← get
      if data.closed then stop .closedConnection
      else do
        let index ← calling (beforeLock env (yytext ++ 0 :: behind) yytext.length)
        pure (index.map fun index => (index, terminated (yytext ++ 0 :: behind) yytext.length))
  | token => do
      action env behind token
      pure none

-----------------------------------------------------------------------------------------
-- Critical sections
-----------------------------------------------------------------------------------------

abbrev Handling := Pieces Event Stop Session

/-- A way to cut what the two threads do under the lock into pieces that are done at once. -/
structure Cut (env : Env) where
  request : BitVec 8 → List (BitVec 8) → Handling
  request_whole : ∀ index packet, (request index packet).whole = handling env index packet
  exception : BitVec 8 → List (ArmCore → ArmCore)
  exception_whole : ∀ irq p, (exception irq).foldl (fun q write => write q) p = armException p irq

/-- `arm_exception` at each of its writes. -/
def exceptionWrites (irq : BitVec 8) : List (ArmCore → ArmCore) :=
  if irq = BitVec.ofInt 8 ArmException.RESET then
    [fun p => armWriteCpsr p (0x1d3 ||| (0 <<< 9)), fun p => armWriteUsrRegister p 15 0]
  else []

/-- The word that `cont` looks at before it steps. -/
def peek (env : Env) (instruction : BitVec 32) : Act (BitVec 32) := do
  let gdb ← get
  pure (armReadWord env.host gdb.arm (armReadRegister gdb.arm 15 - 4) instruction).2

/-- `cont` at each look and at each instruction. -/
def contPieces (env : Env) : Nat → BitVec 32 → Handling
  | 0, _ => .single (stop .running)
  | fuel + 1, instruction =>
      .piece (peek env instruction) fun instruction =>
        if instruction &&& 0xFFF000F0 = 0xE7F000F0 then .single sendStopReason
        else .piece (stepArm env) fun _ => contPieces env fuel instruction

/-- `write_general_registers` at each field. -/
def writeGeneralRegistersPieces (env : Env) (request : List (BitVec 8)) (data : Nat) : Handling :=
  .each (List.range 16)
    (fun i => do
      let value ← readUint32 env request (data + 8 * i)
      modify fun gdb => { gdb with arm := armWriteRegister gdb.arm (BitVec.ofNat 8 i) value })
    (.each (List.range 25)
      (fun j => do
        let _ ← readUint32 env request (data + 8 * (16 + j)))
      (.piece (readUint32 env request (data + 8 * 41)) fun value =>
        .piece (modify fun gdb => { gdb with arm := armWriteCpsr gdb.arm value }) fun _ =>
          .single (gdbSendData (text "OK"))))

/-- One byte of `write_memory_binary`: the index of the next one, unless the write fails. -/
def writeMemoryByte (request : List (BitVec 8)) (address : BitVec 32) (content : Nat)
    : Act (Option Nat) := do
  let c ← readByte request content
  let escaped := c = 0x7d
  let content := if escaped then content + 1 else content
  let c ← readByte request content
  let value := if escaped then c ^^^ 0x20 else c
  let gdb ← get
  let (result, mem) := memoryWriteByte gdb.arm.mem address value
  setArm { gdb.arm with mem }
  pure (if result = 0 then some (content + 1) else none)

/-- `write_memory_binary` at each byte. -/
def writeMemoryPieces (request : List (BitVec 8)) : Nat → BitVec 32 → Nat → Handling
  | 0, _, _ => .single (gdbSendData (text "OK"))
  | size + 1, address, content =>
      .piece (writeMemoryByte request address content) fun
        | some content => writeMemoryPieces request size (address + 1) content
        | none => .single (gdbSendData (text "E02"))

def writeMemoryBinaryPieces (env : Env) (request : List (BitVec 8)) (data : Nat) : Handling :=
  .piece (readString request data) fun s =>
    .piece (useScanned env env.unset.address (scanHexPair s).1) fun address =>
      .piece (useScanned env env.unset.size (scanHexPair s).2) fun size =>
        .piece get fun gdb =>
          if memoryGetSize gdb.arm.mem ≤ address.toNat then .single (gdbSendData (text "E02"))
          else if size = 0 then .single (gdbSendData (text "OK"))
          else
            match (indexOf s (ascii ':')).map fun i => data + i + 1 with
            | none => .single (stop .nullPointer)
            | some content => writeMemoryPieces request size.toNat address content

/-- The handlers that change the processor at each of their accesses, and the other ones as a
whole.
-/
def requestPieces (env : Env) (index : BitVec 8) (packet : List (BitVec 8)) : Handling :=
  if index = ascii 'c' then contPieces env env.fuel env.unset.instruction
  else if index = ascii 's' then .piece (stepArm env) fun _ => .single sendStopReason
  else if index = ascii 'G' then writeGeneralRegistersPieces env packet 2
  else if index = ascii 'X' then writeMemoryBinaryPieces env packet 2
  else .single (handling env index packet)

-----------------------------------------------------------------------------------------
-- Threads
-----------------------------------------------------------------------------------------

inductive Listener where
  | gdb
  | irq
deriving DecidableEq

/-- Where `gdb_listener` is: in the scanner before token `n`, at the lock, in a handler with some
pieces to go, or at its end. The copy of the processor in the session counts for nothing here.
-/
inductive GdbListener : Type 1 where
  | scanning (n : Nat) (rest : List Token) (data : ParserData)
  | locking (n : Nat) (rest : List Token) (data : ParserData) (pieces : Handling)
  | handling (n : Nat) (rest : List Token) (data : ParserData) (pieces : Handling)
  | ended (data : ParserData)
  | stopped (underLock : Bool) (reason : ScannerStop)

/-- Where `irq_listener` is: before it reads the next byte, of whichever connection, at the lock, or
in `arm_exception`.
-/
inductive IrqListener : Type 1 where
  | reading (rest : List (BitVec 8))
  | locking (irq : BitVec 8) (rest : List (BitVec 8))
  | handling (writes : List (ArmCore → ArmCore)) (rest : List (BitVec 8))

/-- The same scanner's data with another processor. -/
def ParserData.withArm (data : ParserData) (arm : ArmCore) : ParserData :=
  { data with gdb := { data.gdb with arm } }

/-- One piece of a handler, for the processor as it is now. -/
def pieceOnArm {α : Type} (act : Act α) (data : ParserData)
    (goOn : α → ParserData → GdbListener) (arm : ArmCore)
    : ArmCore × GdbListener :=
  match (calling act (data.withArm arm)).result with
  | .ok (a, after) => (after.gdb.arm, goOn a after)
  | .error reason => (arm, .stopped true reason)

/-- `gdb_listener`. What stops a handler keeps the lock. -/
def gdbListener (env : Env) (behind : Nat → List (BitVec 8)) (cut : Cut env)
    : GdbListener → Instruction ArmCore GdbListener
  | .scanning _ [] data =>
      match (handleError data).result with
      | .ok (_, after) => .internal (.ended after)
      | .error reason => .internal (.stopped false reason)
  | .scanning n (token :: rest) data =>
      match (beforeHandler env (behind n) token data).result with
      | .ok (none, after) => .internal (.scanning (n + 1) rest after)
      | .ok (some (index, packet), after) =>
          .internal (.locking n rest after (cut.request index packet))
      | .error reason => .internal (.stopped false reason)
  | .locking n rest data pieces => .lock (.handling n rest data pieces)
  | .handling n rest data .done => .unlock (.scanning (n + 1) rest data)
  | .handling n rest data (.piece act next) =>
      .access (pieceOnArm act data fun a after => .handling n rest after (next a))
  | .ended _ => .halt
  | .stopped _ _ => .halt

/-- `irq_listener`. -/
def irqListener {env : Env} (cut : Cut env) : IrqListener → Instruction ArmCore IrqListener
  | .reading [] => .halt
  | .reading (irq :: rest) => .internal (.locking irq rest)
  | .locking irq rest => .lock (.handling (cut.exception irq) rest)
  | .handling [] rest => .unlock (.reading rest)
  | .handling (write :: writes) rest => .access fun arm => (write arm, .handling writes rest)

def Where : Listener → Type 1
  | .gdb => GdbListener
  | .irq => IrqListener

def listeners (env : Env) (behind : Nat → List (BitVec 8)) (cut : Cut env) : Code ArmCore Where
  | .gdb => gdbListener env behind cut
  | .irq => irqListener cut

/-- `main` after it has created the two threads: the bytes that gdb and the senders of interrupts
are going to send are given.
-/
def started (arm : ArmCore) (packet buffer : Nat → BitVec 8) (input irqs : List (BitVec 8))
    : Config ArmCore Where where
  shared := arm
  holder := none
  locals
    | .gdb => .scanning 0 (scanned input) (gdbScannerData arm packet buffer)
    | .irq => .reading irqs

end Armator.Gdb
