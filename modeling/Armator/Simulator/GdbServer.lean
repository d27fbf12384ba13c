import Armator.Lib.CText
import Armator.Lib.Traced
import Armator.Simulator.GdbProtocol

/-! `gdb_protocol.c`: packets, their analysis and the request handlers.
The calls of `debug` and of the trace are left out; those of the lock are in `Threads`. `gdb->mem` is
the memory of `gdb->arm`.
-/

namespace Armator.Gdb

open CText Traced

def MAX_PACKET_SIZE : Nat := 1024

/-- A `struct gdb_protocol_data` with `packet` as its array, and the bytes given to `Rio_writen`. -/
structure Session extends GdbProtocolData where
  packet : Nat → BitVec 8
  len : Nat
  sent : List (BitVec 8)

/-- What a handler does besides changing the session: it writes to `packet`, reads its request, uses
numbers that no conversion assigned and closes the connection for writing.
-/
inductive Event where
  | write (index : Nat)
  | readString (position : Nat)
  | readByte (position : Nat)
  | unparsed
  | shutdown
deriving DecidableEq

/-- Why a call does not come back: an `assert` fails, a pointer computed from NULL is used, a write
misses `packet`, the simulated program ends the process, or `cont` still runs.
-/
inductive Stop where
  | assertion
  | nullPointer
  | overflow
  | exited (status : Int)
  | running

abbrev Act := Traced Event Stop Session

/-- What uninitialized local variables hold; `value` is the one of the call of `read_uint32` for
that position.
-/
structure Unset where
  address : BitVec 32
  size : BitVec 32
  reg : BitVec 32
  given : BitVec 32
  instruction : BitVec 32
  value : Nat → BitVec 32

/-- What the server takes from its machine and its build. C leaves the conversion of a number that
the variable cannot hold undefined: here the machine chooses, and nothing is assumed about its
choice. `fuel` is the number of instructions for which `cont` is followed.
-/
structure Env where
  host : Host
  bigEndianSimulator : Bool
  scanBeyond : Int → BitVec 32
  atoiBeyond : Int → BitVec 32
  unset : Unset
  fuel : Nat

-----------------------------------------------------------------------------------------
-- Accesses
-----------------------------------------------------------------------------------------

/-- The assignment `gdb->packet[index] = c`. -/
def writePacket (index : Nat) (c : BitVec 8) : Act Unit := do
  log (.write index)
  if index < MAX_PACKET_SIZE then
    modify fun gdb => { gdb with packet := fun j => if j = index then c else gdb.packet j }
  else stop .overflow

/-- `sprintf` or `strcpy` to an index of `gdb->packet`, with the final NUL. -/
def writeText (index : Nat) (s : List (BitVec 8)) : Act Unit :=
  each ((s ++ [0]).zipIdx index) fun (c, i) => writePacket i c

/-- The string at a position of the request. -/
def readString (request : List (BitVec 8)) (position : Nat) : Act (List (BitVec 8)) := do
  log (.readString position)
  pure (stringAt request position)

def readByte (request : List (BitVec 8)) (position : Nat) : Act (BitVec 8) := do
  log (.readByte position)
  pure (request.getD position 0)

/-- Using an `unsigned int` after `sscanf` with `%x`: `old` is what it held before. -/
def useScanned (env : Env) (old : BitVec 32) (number : Option Int) : Act (BitVec 32) :=
  match number with
  | some n =>
      if 0 ≤ n ∧ n < 2 ^ 32 then pure (BitVec.ofInt 32 n)
      else do
        log .unparsed
        pure (env.scanBeyond n)
  | none => do
      log .unparsed
      pure old

/-- Using the result of `atoi`, which is 0 without a number. -/
def useAtoi (env : Env) (number : Option Int) : Act (BitVec 32) :=
  match number with
  | some n =>
      if -2 ^ 31 ≤ n ∧ n < 2 ^ 31 then pure (BitVec.ofInt 32 n)
      else do
        log .unparsed
        pure (env.atoiBeyond n)
  | none => do
      log .unparsed
      pure 0

-----------------------------------------------------------------------------------------
-- Sending
-----------------------------------------------------------------------------------------

def rioWriten (data : List (BitVec 8)) : Act Unit :=
  modify fun gdb => { gdb with sent := gdb.sent ++ data }

def gdbSendAck : Act Unit :=
  rioWriten (text "+")

def gdbRequireRetransmission : Act Unit :=
  rioWriten (text "-")

def gdbTransmitPacket : Act Unit := do
  let gdb ← get
  rioWriten ((List.range gdb.len).map gdb.packet)

/-- The sum that a packet ends with. -/
def checksum (s : List (BitVec 8)) : BitVec 8 :=
  s.foldl (fun check c => check + c) 0

/-- The bytes of `packet` from an index to the next NUL, or to the end of the array. -/
def packetText (packet : Nat → BitVec 8) : Nat → Nat → List (BitVec 8)
  | 0, _ => []
  | n + 1, i => if packet i = 0 then [] else packet i :: packetText packet n (i + 1)

/-- `gdb_send_buffer`; its loop goes through the text that starts at index 1. -/
def gdbSendBuffer : Act Unit := do
  writePacket 0 (ascii '$')
  let gdb ← get
  let sum := packetText gdb.packet (MAX_PACKET_SIZE - 1) 1
  let i := 1 + sum.length
  writePacket i (ascii '#')
  writeText (i + 1) (printHex2 (checksum sum))
  writePacket (i + 3) 0
  modify fun gdb => { gdb with len := i + 3 }
  gdbTransmitPacket

/-- `gdb_send_data`; `gdb->buffer` is index 1 of the packet. -/
def gdbSendData (data : List (BitVec 8)) : Act Unit := do
  writeText 1 data
  gdbSendBuffer

-----------------------------------------------------------------------------------------
-- Words in hexadecimal
-----------------------------------------------------------------------------------------

/-- The index in `mem.bytes` for the step `k` of the loops of `read_uint32` and `write_uint32`. -/
def Env.byteIndex (env : Env) (k : Nat) : Nat :=
  if env.host.isBigEndian = (if env.bigEndianSimulator then 1 else 0) then k else 3 - k

/-- The loop of `read_uint32` from its step `k` on: the assigned bytes. -/
def readUint32Loop (env : Env) (request : List (BitVec 8)) (data : Nat)
    : Nat → Nat → BitVec 32 → (Nat → BitVec 8) → Act (Nat → BitVec 8)
  | 0, _, _, bytes => pure bytes
  | n + 1, k, value, bytes => do
      let s ← readString request (data + 2 * k)
      let value ← useScanned env value (scanHex2 s)
      let index := env.byteIndex k
      readUint32Loop env request data n (k + 1) value
        fun j => if j = index then value.setWidth 8 else bytes j

def readUint32 (env : Env) (request : List (BitVec 8)) (data : Nat) : Act (BitVec 32) := do
  let bytes ← readUint32Loop env request data 4 0 (env.unset.value data) fun _ => 0
  pure (env.host.order.ofBytes 32 bytes)

def writeUint32 (env : Env) (data : Nat) (value : BitVec 32) : Act Unit := do
  each (List.range 4) fun k =>
    writeText (data + 2 * k) (printHex2 (env.host.order.byteOf value (env.byteIndex k)))
  writePacket (data + 8) 0

-----------------------------------------------------------------------------------------
-- Running
-----------------------------------------------------------------------------------------

def setArm (arm : ArmCore) : Act Unit :=
  modify fun gdb => { gdb with arm }

def sendStopReason : Act Unit := do
  let gdb ← get
  gdbSendData (text (gdbSendStopReason gdb.toGdbProtocolData))

/-- The call `gdb->target_exception = arm_step(gdb->arm)`. -/
def stepArm (env : Env) : Act Unit := do
  let gdb ← get
  match armStep env.host gdb.arm with
  | .returned result arm => modify fun gdb => { gdb with arm, targetException := result }
  | .exited status => stop (.exited status)

/-- The loop of `cont`: it ends at a breakpoint, `instruction` being what the variable holds. -/
def contLoop (env : Env) : Nat → BitVec 32 → Act Unit
  | 0, _ => stop .running
  | fuel + 1, instruction => do
      let gdb ← get
      let r15 := armReadRegister gdb.arm 15 - 4
      let instruction := (armReadWord env.host gdb.arm r15 instruction).2
      if instruction &&& 0xFFF000F0 = 0xE7F000F0 then pure ()
      else do
        stepArm env
        contLoop env fuel instruction

def cont (env : Env) : Act Unit := do
  contLoop env env.fuel env.unset.instruction
  sendStopReason

def killRequest : Act Unit :=
  log .shutdown

def reason : Act Unit :=
  sendStopReason

def stepRequest (env : Env) : Act Unit := do
  stepArm env
  sendStopReason

-----------------------------------------------------------------------------------------
-- Queries and registers
-----------------------------------------------------------------------------------------

def query (request : List (BitVec 8)) (data : Nat) : Act Unit := do
  let s ← readString request data
  if s = text "Offsets" then gdbSendData (text "Text=0;Data=0;Bss=0")
  else if s.take 9 = text "Supported" then gdbSendData (text "PacketSize=400")
  else if s = text "TStatus" then gdbSendData (text "T0;tnotrun:0")
  else if s = text "Symbol::" then gdbSendData []
  else gdbSendData []

def readGeneralRegisters (env : Env) : Act Unit := do
  let gdb ← get
  each (List.range 15) fun i =>
    writeUint32 env (1 + 8 * i) (armReadRegister gdb.arm (BitVec.ofNat 8 i))
  -- the pc is one instruction ahead
  writeUint32 env (1 + 8 * 15) (armReadRegister gdb.arm 15 - 4)
  each (List.range 24) fun j => writeText (1 + 8 * (16 + j)) (text "xxxxxxxx")
  writeText (1 + 8 * 40) (text "xxxxxxxx")
  writeUint32 env (1 + 8 * 41) (armReadCpsr gdb.arm)
  gdbSendBuffer

/-- `assert(reg < 16)`. -/
def assertRegister (reg : BitVec 32) : Act Unit :=
  if reg.toNat < 16 then pure () else stop .assertion

/-- `read_register`: the number is read as a decimal one. -/
def readRegisterRequest (env : Env) (request : List (BitVec 8)) (data : Nat) : Act Unit := do
  let s ← readString request data
  let reg ← useAtoi env (scanInt s)
  assertRegister reg
  let gdb ← get
  writeUint32 env 1
    (armReadRegister gdb.arm (reg.setWidth 8) - (if reg = 15 then 4 else 0))
  gdbSendBuffer

/-- `set_thread`: the number is used for the types `c` and `g` only. -/
def setThread (env : Env) (request : List (BitVec 8)) (data : Nat) : Act Unit := do
  let type ← readByte request data
  let s ← readString request (data + 1)
  if type = ascii 'c' ∨ type = ascii 'g' then do
    let value ← useAtoi env (scanInt s)
    if value.toInt < 1 ∧ -2 < value.toInt then gdbSendData (text "OK")
    else gdbSendData (text "E01")
  else gdbSendData (text "E01")

/-- `write_general_registers`: the fields are read at fixed offsets. -/
def writeGeneralRegisters (env : Env) (request : List (BitVec 8)) (data : Nat) : Act Unit := do
  each (List.range 16) fun i => do
    let value ← readUint32 env request (data + 8 * i)
    modify fun gdb => { gdb with arm := armWriteRegister gdb.arm (BitVec.ofNat 8 i) value }
  each (List.range 25) fun j => do
    let _ ← readUint32 env request (data + 8 * (16 + j))
  let value ← readUint32 env request (data + 8 * 41)
  modify fun gdb => { gdb with arm := armWriteCpsr gdb.arm value }
  gdbSendData (text "OK")

/-- `write_register`: the text is searched for `=` before the number is checked. -/
def writeRegisterRequest (env : Env) (request : List (BitVec 8)) (data : Nat) : Act Unit := do
  let s ← readString request data
  match indexOf s (ascii '=') with
  | none => stop .nullPointer
  | some i =>
      let value ← readUint32 env request (data + i + 1)
      let reg ← useScanned env env.unset.reg ((scanHex s).map Prod.fst)
      assertRegister reg
      modify fun gdb => { gdb with arm := armWriteRegister gdb.arm (reg.setWidth 8) value }
      gdbSendData (text "OK")

-----------------------------------------------------------------------------------------
-- Memory
-----------------------------------------------------------------------------------------

/-- The loop of `read_memory` with `size` still to read, at an index of the packet. -/
def readMemoryLoop : Nat → BitVec 32 → Nat → Act Unit
  | 0, _, _ => pure ()
  | size + 1, address, position => do
      let gdb ← get
      let (result, value) := memoryReadByte gdb.arm.mem address 0
      if result ≠ -1 then do
        writeText position (printHex2 value)
        readMemoryLoop size (address + 1) (position + 2)
      else pure ()

def readMemory (env : Env) (request : List (BitVec 8)) (data : Nat) : Act Unit := do
  let s ← readString request data
  let (address, size) := scanHexPair s
  writePacket 1 0
  let size ← useScanned env env.unset.size size
  if size = 0 then pure ()
  else do
    let address ← useScanned env env.unset.address address
    readMemoryLoop size.toNat address 1
  gdbSendBuffer

/-- The loop of `write_memory_binary` with `size` still to write: the last `write_ok`. -/
def writeMemoryLoop (request : List (BitVec 8)) : Nat → BitVec 32 → Nat → Act Bool
  | 0, _, _ => pure true
  | size + 1, address, content => do
      let c ← readByte request content
      let escaped := c = 0x7d
      let content := if escaped then content + 1 else content
      let c ← readByte request content
      let value := if escaped then c ^^^ 0x20 else c
      let gdb ← get
      let (result, mem) := memoryWriteByte gdb.arm.mem address value
      setArm { gdb.arm with mem }
      if result = 0 then writeMemoryLoop request size (address + 1) (content + 1)
      else pure false

def writeMemoryBinary (env : Env) (request : List (BitVec 8)) (data : Nat) : Act Unit := do
  let s ← readString request data
  let (address, size) := scanHexPair s
  -- without a colon the pointer is 1, and is used for the first byte only
  let content := (indexOf s (ascii ':')).map fun i => data + i + 1
  let address ← useScanned env env.unset.address address
  let size ← useScanned env env.unset.size size
  let gdb ← get
  let writeOk ←
    if memoryGetSize gdb.arm.mem ≤ address.toNat then pure false
    else if size = 0 then pure true
    else
      match content with
      | none => stop .nullPointer
      | some content => writeMemoryLoop request size.toNat address content
  if writeOk then gdbSendData (text "OK") else gdbSendData (text "E02")

-----------------------------------------------------------------------------------------
-- Packets
-----------------------------------------------------------------------------------------

/-- The table `handler` that `gdb_init` fills; a handler takes the packet and the index of its
data.
-/
def handler (env : Env) (index : BitVec 8) : Option (List (BitVec 8) → Nat → Act Unit) :=
  if index = ascii 'c' then some fun _ _ => cont env
  else if index = ascii 'k' then some fun _ _ => killRequest
  else if index = ascii 'q' then some query
  else if index = ascii 'g' then some fun _ _ => readGeneralRegisters env
  else if index = ascii 'm' then some (readMemory env)
  else if index = ascii 'p' then some (readRegisterRequest env)
  else if index = ascii '?' then some fun _ _ => reason
  else if index = ascii 'H' then some (setThread env)
  else if index = ascii 's' then some fun _ _ => stepRequest env
  else if index = ascii 'G' then some (writeGeneralRegisters env)
  else if index = ascii 'X' then some (writeMemoryBinary env)
  else if index = ascii 'P' then some (writeRegisterRequest env)
  else none

/-- `gdb_packet_analysis` for the text of `length` bytes at the start of the scanner's buffer. -/
def gdbPacketAnalysis (env : Env) (packet : List (BitVec 8)) (length : Nat) : Act Unit := do
  let i := max 1 (length - 3)
  let check := checksum ((packet.take i).drop 1)
  let given ← useScanned env env.unset.given
    ((scanHex (stringAt packet (i + 1))).map Prod.fst)
  if check.setWidth 32 = given then do
    gdbSendAck
    let packet := packet.set i 0
    match handler env (packet.getD 1 0) with
    | some handle => handle packet 2
    | none => gdbSendData []
  else gdbRequireRetransmission

/-- `gdb_init_data`; `malloc` leaves the packet to the host. -/
def gdbInitData (arm : ArmCore) (packet : Nat → BitVec 8) : Session :=
  { arm, targetException := 0, packet, len := 0, sent := [] }

end Armator.Gdb
