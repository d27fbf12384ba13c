import Armator.Simulator.Core

/-! The second operand of a data-processing instruction, as the architecture defines it. -/

namespace Armator

/-- The four shifts, encoded in bits 6 and 5. -/
inductive ShiftKind where
  | LSL | LSR | ASR | ROR
deriving DecidableEq, Repr

namespace ShiftKind

def decode (ins : BitVec 32) : ShiftKind :=
  match ins.getLsbD 6, ins.getLsbD 5 with
  | false, false => LSL
  | false, true => LSR
  | true, false => ASR
  | true, true => ROR

/-- A shift by the five-bit immediate: for the right shifts 0 stands for 32, and a rotation by
0 is the rotation by one bit through the carry.
-/
def byImmediate (kind : ShiftKind) (value : BitVec 32) (amount : Nat) (carry : Bool)
    : BitVec 32 :=
  match kind with
  | LSL => value <<< amount
  | LSR => if amount = 0 then 0 else value >>> amount
  | ASR => value.sshiftRight (if amount = 0 then 32 else amount)
  | ROR =>
      if amount = 0 then Bits.putBit (value >>> 1) 31 carry else value.rotateRight amount

/-- A shift by the low byte of a register, for every amount from 0 to 255: the shifts run out
of bits, the rotation is taken modulo 32.
-/
def byRegister (kind : ShiftKind) (value : BitVec 32) (amount : Nat) : BitVec 32 :=
  match kind with
  | LSL => value <<< amount
  | LSR => value >>> amount
  | ASR => value.sshiftRight amount
  | ROR => value.rotateRight amount

/-- The last bit that a shift by so many places moves or rotates out: the one that leaves in the
shift by one place after all the others.
-/
def lastOut (kind : ShiftKind) (value : BitVec 32) (amount : Nat) : Option Bool :=
  if amount = 0 then none
  else
    let before := kind.byRegister value (amount - 1)
    match kind with
    | LSL => some before.msb
    | LSR | ASR | ROR => some (before.getLsbD 0)

/-- The same for a five-bit immediate, where 0 stands for 32 and the rotation through the carry
moves the lowest bit out.
-/
def lastOutByImmediate (kind : ShiftKind) (value : BitVec 32) (amount : Nat) : Option Bool :=
  match kind with
  | LSL => LSL.lastOut value amount
  | LSR => LSR.lastOut value (if amount = 0 then 32 else amount)
  | ASR => ASR.lastOut value (if amount = 0 then 32 else amount)
  | ROR => if amount = 0 then some (value.getLsbD 0) else ROR.lastOut value amount

end ShiftKind

/-- The shifter operand: a rotated immediate, or a register shifted by an immediate or by the
low byte of another register.
-/
def shifterOperand (p : ArmCore) (ins : BitVec 32) : BitVec 32 :=
  if ins.getLsbD 25 then
    ((ins.extractLsb' 0 8).setWidth 32).rotateRight (2 * (ins.extractLsb' 8 4).toNat)
  else
    let kind := ShiftKind.decode ins
    let value := armReadRegister p ((ins.extractLsb' 0 4).setWidth 8)
    if ins.getLsbD 4 then
      let source := armReadRegister p ((ins.extractLsb' 8 4).setWidth 8)
      kind.byRegister value (source.extractLsb' 0 8).toNat
    else
      kind.byImmediate value (ins.extractLsb' 7 5).toNat
        ((armReadCpsr p).getLsbD CpsrBit.C)

/-- The last bit shifted or rotated out of the operand, none for an immediate that is not rotated
and a register that is not shifted.
-/
def operandLastOut (p : ArmCore) (ins : BitVec 32) : Option Bool :=
  if ins.getLsbD 25 then
    ShiftKind.ROR.lastOut ((ins.extractLsb' 0 8).setWidth 32) (2 * (ins.extractLsb' 8 4).toNat)
  else
    let kind := ShiftKind.decode ins
    let value := armReadRegister p ((ins.extractLsb' 0 4).setWidth 8)
    if ins.getLsbD 4 then
      let source := armReadRegister p ((ins.extractLsb' 8 4).setWidth 8)
      kind.lastOut value (source.extractLsb' 0 8).toNat
    else kind.lastOutByImmediate value (ins.extractLsb' 7 5).toNat

/-- The carry-out of the shifter: the old carry when nothing is shifted out. -/
def shifterCarryOut (p : ArmCore) (ins : BitVec 32) : Bool :=
  (operandLastOut p ins).getD ((armReadCpsr p).getLsbD CpsrBit.C)

/-- The offset of a load or store of a word or byte in its register form: Rm shifted by an
immediate.
-/
def scaledOffset (p : ArmCore) (ins : BitVec 32) : BitVec 32 :=
  (ShiftKind.decode ins).byImmediate (armReadRegister p ((ins.extractLsb' 0 4).setWidth 8))
    (ins.extractLsb' 7 5).toNat ((armReadCpsr p).getLsbD CpsrBit.C)

end Armator
