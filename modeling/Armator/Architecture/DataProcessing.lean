import Armator.Architecture.Flags

/-! The data-processing opcodes of the architecture: results, exact values and flags. -/

namespace Armator

open ExactArith

inductive Opcode where
  | AND | EOR | SUB | RSB | ADD | ADC | SBC | RSC
  | TST | TEQ | CMP | CMN | ORR | MOV | BIC | MVN
deriving DecidableEq, Repr

namespace Opcode

/-- The opcode field, bits 24 to 21. -/
def decode (ins : BitVec 32) : Opcode :=
  match (ins.extractLsb' 21 4).toNat with
  | 0 => AND
  | 1 => EOR
  | 2 => SUB
  | 3 => RSB
  | 4 => ADD
  | 5 => ADC
  | 6 => SBC
  | 7 => RSC
  | 8 => TST
  | 9 => TEQ
  | 10 => CMP
  | 11 => CMN
  | 12 => ORR
  | 13 => MOV
  | 14 => BIC
  | _ => MVN

/-- The number that encodes an opcode. -/
def code : Opcode → Nat
  | AND => 0
  | EOR => 1
  | SUB => 2
  | RSB => 3
  | ADD => 4
  | ADC => 5
  | SBC => 6
  | RSC => 7
  | TST => 8
  | TEQ => 9
  | CMP => 10
  | CMN => 11
  | ORR => 12
  | MOV => 13
  | BIC => 14
  | MVN => 15

/-- The decoded opcode is encoded by the field it came from. Witness: sixteen cases. -/
theorem code_decode (ins : BitVec 32) : (decode ins).code = (ins.extractLsb' 21 4).toNat := by
  have bound := (ins.extractLsb' 21 4).isLt
  unfold decode
  generalize (ins.extractLsb' 21 4).toNat = field at bound
  interval_cases field <;> rfl

/-- The carry flag as the number added by ADC. -/
def carryIn (c : Bool) : BitVec 32 :=
  if c then 1 else 0

/-- The borrow taken by SBC and RSC, 1 - C. -/
def borrowIn (c : Bool) : BitVec 32 :=
  if c then 0 else 1

/-- The 32-bit result of an opcode on its two operands and the old carry. -/
def result (op : Opcode) (a b : BitVec 32) (c : Bool) : BitVec 32 :=
  match op with
  | AND | TST => a &&& b
  | EOR | TEQ => a ^^^ b
  | SUB | CMP => a - b
  | RSB => b - a
  | ADD | CMN => a + b
  | ADC => a + b + carryIn c
  | SBC => a - b - borrowIn c
  | RSC => b - a - borrowIn c
  | ORR => a ||| b
  | MOV => b
  | BIC => a &&& ~~~b
  | MVN => ~~~b

/-- The comparison opcodes only set flags; every other opcode writes Rd. -/
def writesResult : Opcode → Bool
  | TST | TEQ | CMP | CMN => false
  | _ => true

/-- The opcodes whose flags come from a sum. -/
def isSum : Opcode → Bool
  | ADD | ADC | CMN => true
  | _ => false

/-- The opcodes whose flags come from a difference. -/
def isDifference : Opcode → Bool
  | SUB | RSB | SBC | RSC | CMP => true
  | _ => false

/-- The opcodes that combine their operands bit by bit, or move the second one. -/
def isLogical : Opcode → Bool
  | AND | EOR | TST | TEQ | ORR | MOV | BIC | MVN => true
  | _ => false

/-- The exact sum or difference of an arithmetic opcode, before it is reduced to a word. -/
def exactValue (op : Opcode) (x y : Int) (c : Bool) : Int :=
  match op with
  | ADD | CMN => x + y
  | ADC => x + y + c.toNat
  | SUB | CMP => x - y
  | RSB => y - x
  | SBC => x - y - (!c).toNat
  | RSC => y - x - (!c).toNat
  | _ => 0

/-- The flags of an arithmetic opcode: N and Z of the result, C the carry out of the exact
unsigned sum or the absence of a borrow, V whether the exact signed value fits no word.
-/
def arithFlags (op : Opcode) (a b : BitVec 32) (c : Bool) : Flags where
  n := (op.result a b c).msb
  z := op.result a b c = 0
  c :=
    if op.isSum then 2 ^ 32 ≤ op.exactValue a.toNat b.toNat c
    else 0 ≤ op.exactValue a.toNat b.toNat c
  v := ¬ Fits 32 (op.exactValue a.toInt b.toInt c)

/-- The flags of a logical opcode: N and Z of the result, C the carry-out of the shifter, and the
old V.
-/
def logicalFlags (op : Opcode) (a b psr : BitVec 32) (carryOut : Bool) : Flags where
  n := (op.result a b (psr.getLsbD CpsrBit.C)).msb
  z := op.result a b (psr.getLsbD CpsrBit.C) = 0
  c := carryOut
  v := psr.getLsbD CpsrBit.V

end Opcode

end Armator
