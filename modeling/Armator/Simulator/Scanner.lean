import Armator.Lib.LongestMatch
import Armator.Simulator.GdbServer

/-! `scanner.l`: the rules of the scanner and the actions of their tokens. -/

namespace Armator.Gdb

open CText Traced LongestMatch

def MAX_ERROR_SIZE : Nat := 1024

-----------------------------------------------------------------------------------------
-- Rules
-----------------------------------------------------------------------------------------

/-- What a rule makes of the text `yytext`; `echo` is flex's own rule for bytes that no other one
matches.
-/
inductive Token where
  | ack
  | retransmission
  | packet (yytext : List (BitVec 8))
  | character (c : BitVec 8)
  | echo (c : BitVec 8)
deriving DecidableEq

/-- The bytes of an 8-bit scanner. -/
def bytes : List (BitVec 8) :=
  (List.range 256).map (BitVec.ofNat 8)

/-- The bytes with a property. -/
def bytesThat (property : BitVec 8 → Bool) : RegularExpression (BitVec 8) :=
  oneOf (bytes.filter property)

/-- The definition `HEX`. -/
def HEX : RegularExpression (BitVec 8) :=
  bytesThat fun c => (hexDigit c).isSome

/-- The pattern of packets. -/
def packetPattern : RegularExpression (BitVec 8) :=
  .char (ascii '$') * (bytesThat fun c => c ≠ ascii '$' ∧ c ≠ ascii '#').star * .char (ascii '#')
    * HEX * HEX

/-- The rules, in the order of the source. -/
def rules : List (Rule (BitVec 8) Token) :=
  [{ pattern := .char (ascii '+'), token := fun _ => .ack },
    { pattern := .char (ascii '-'), token := fun _ => .retransmission },
    { pattern := packetPattern, token := .packet },
    { pattern := bytesThat fun c => c ≠ ascii '\n'
      token := fun yytext => .character (yytext.headD 0) }]

/-- The tokens of the input. -/
def scanned (input : List (BitVec 8)) : List Token :=
  tokens rules .echo input

-----------------------------------------------------------------------------------------
-- Actions
-----------------------------------------------------------------------------------------

/-- A `struct parser_data`, and whether `gdb->fd` is closed for writing. -/
structure ParserData where
  gdb : Session
  buffer : Nat → BitVec 8
  len : Nat
  closed : Bool

/-- What the scanner does besides changing its data: it calls `gdb_packet_analysis`, in which
something happens, writes to its own buffer and copies a byte to its output.
-/
inductive ScannerEvent where
  | analysis (yytext : List (BitVec 8))
  | inSession (event : Event)
  | write (index : Nat)
  | output (c : BitVec 8)
deriving DecidableEq

/-- Why the scanner does not come back: a call of it does not, a write misses `buffer`, or the process
ends since it writes to a closed connection.
-/
inductive ScannerStop where
  | inSession (reason : Stop)
  | overflow
  | closedConnection

abbrev Scan := Traced ScannerEvent ScannerStop ParserData

/-- A call that works on the session. -/
def inSession (call : Act Unit) : Scan Unit := fun data =>
  { events := (call data.gdb).events.map .inSession
    result :=
      match (call data.gdb).result with
      | .ok ((), gdb) =>
          .ok ((), { data with gdb, closed := data.closed || (call data.gdb).events.contains .shutdown })
      | .error reason => .error (.inSession reason) }

/-- A call that gives bytes to `Rio_writen` before it does anything else. -/
def sending (call : Act Unit) : Scan Unit := do
  let data ← get
  if data.closed then stop .closedConnection else inSession call

/-- The assignment `data->buffer[index] = c`. -/
def writeBuffer (index : Nat) (c : BitVec 8) : Scan Unit := do
  log (.write index)
  if index < MAX_ERROR_SIZE then
    modify fun data => { data with buffer := fun j => if j = index then c else data.buffer j }
  else stop .overflow

def handleError : Scan Unit := do
  let data ← get
  if data.len ≠ 0 then do
    writeBuffer data.len 0
    sending gdbRequireRetransmission
    modify fun data => { data with len := 0 }
  else pure ()

def addCharacterToError (c : BitVec 8) : Scan Unit := do
  let data ← get
  (if data.len > MAX_ERROR_SIZE - 2 then handleError else pure ())
  let data ← get
  writeBuffer data.len c
  modify fun data => { data with len := data.len + 1 }

/-- The action of a token. `Rio_writen` does nothing for 0 bytes. In the scanner's own buffer the
text of the token is followed by a NUL and by what is `behind` it.
-/
def action (env : Env) (behind : List (BitVec 8)) : Token → Scan Unit
  | .ack => handleError
  | .retransmission => do
      handleError
      let data ← get
      (if data.gdb.len = 0 then inSession gdbTransmitPacket else sending gdbTransmitPacket)
  | .packet yytext => do
      handleError
      log (.analysis yytext)
      sending (gdbPacketAnalysis env (yytext ++ 0 :: behind) yytext.length)
  | .character c => addCharacterToError c
  | .echo c => log (.output c)

/-- The actions of some tokens, of which the first one has number `n`; the input goes on behind
token `n` with `behind n`, as far as it has been read.
-/
def actions (env : Env) (behind : Nat → List (BitVec 8)) : Nat → List Token → Scan Unit
  | _, [] => pure ()
  | n, token :: rest => do
      action env (behind n) token
      actions env behind (n + 1) rest

/-- `yylex` for an input that ends. The actions change the scanner's buffer inside the text of their
token only, so the tokens are those of the input.
-/
def yylex (env : Env) (behind : Nat → List (BitVec 8)) (input : List (BitVec 8)) : Scan Unit := do
  actions env behind 0 (scanned input)
  handleError

/-- `gdb_scanner` before the call of `yylex`. -/
def gdbScannerData (arm : ArmCore) (packet buffer : Nat → BitVec 8) : ParserData :=
  { gdb := gdbInitData arm packet, buffer, len := 0, closed := false }

end Armator.Gdb
