import Armator.Lib.Traced
import Armator.Simulator.DataProcessing
import Armator.Simulator.LoadStore

/-! The functions of `util.c`, `arm_data_processing.c` and `arm_load_store.c` that shift, with the
counts of the shifts that they evaluate.
-/

namespace Armator

open Traced

/-- A computation that logs the count of each shift. -/
abbrev Counted := Traced Int Empty Unit

namespace Counted

def shl (host : Host) (value : BitVec 32) (count : Int) : Counted (BitVec 32) := do
  log count
  pure (host.shl value count)

def shr (host : Host) (value : BitVec 32) (count : Int) : Counted (BitVec 32) := do
  log count
  pure (host.shr value count)

/-- `get_bit`; `x` is not negative. -/
def getBit (x : BitVec 32) (i : Nat) : Counted (BitVec 32) := do
  log i
  pure (Armator.getBit x i)

def asr (host : Host) (value : BitVec 32) (shift : BitVec 8) : Counted (BitVec 32) := do
  let low ← shr host value shift.toNat
  let sign ← getBit value 31
  let high ← if sign ≠ 0 then shl host (~~~0) (32 - shift.toNat) else pure 0
  pure (low ||| high)

def ror (host : Host) (value : BitVec 32) (rotation : BitVec 8) : Counted (BitVec 32) := do
  let low ← shr host value rotation.toNat
  let high ← shl host value (32 - rotation.toNat)
  pure (low ||| high)

def applyRotationImm (host : Host) (ins : BitVec 32) : Counted (BitVec 32) := do
  let field ← shr host (ins &&& 0xf00) 8
  let rotationImm : BitVec 8 := field.setWidth 8
  let immed8 : BitVec 8 := (ins &&& 0xff).setWidth 8
  if rotationImm ≠ 0 then do
    let low ← shr host (immed8.setWidth 32) (rotationImm.toNat * 2)
    let high ← shl host (immed8.setWidth 32) (8 - rotationImm.toNat * 2)
    pure (low ||| high)
  else pure (immed8.setWidth 32)

/-- The `switch` of `decode_operand` on the shift type. -/
def applyShift (host : Host) (shift : BitVec 8) (value : BitVec 32) (valShift : BitVec 8)
    : Counted (BitVec 32) :=
  if shift = ShiftType.LSL then shl host value valShift.toNat
  else if shift = ShiftType.LSR then shr host value valShift.toNat
  else if shift = ShiftType.ASR then asr host value valShift
  else if shift = ShiftType.ROR then ror host value valShift
  else pure value

def decodeOperand (host : Host) (p : ArmCore) (ins : BitVec 32)
    : Counted (Int × BitVec 32 × BitVec 32) := do
  let rn ← shr host ins 16
  let bit25 ← getBit ins 25
  let bit7 ← getBit ins 7
  let bit4 ← getBit ins 4
  let val1 := armReadRegister p ((rn &&& 0xf).setWidth 8)
  if bit25.setWidth 8 = 1 then do
    let val2 ← applyRotationImm host ins
    pure (0, val1, val2)
  else do
    let type ← shr host ins 5
    let shift : BitVec 8 := (type &&& 2).setWidth 8
    let val2 := armReadRegister p ((ins &&& 0xf).setWidth 8)
    if bit4.setWidth 8 = 0 then do
      let immediate ← shr host ins 7
      let val2 ← applyShift host shift val2 ((immediate &&& 31).setWidth 8)
      pure (0, val1, val2)
    else if bit7.setWidth 8 = 0 then do
      let rs ← shr host ins 8
      let valShift : BitVec 8 := (armReadRegister p ((rs &&& 0xf).setWidth 8)).setWidth 8
      let val2 ← applyShift host shift val2 valShift
      pure (0, val1, val2)
    else pure (-1, val1, val2)

-- the cases of the scaled-offset `switch` of `arm_load_store` that fall through
section ScaledCases

variable (host : Host) (p : ArmCore) (value : BitVec 32) (shiftImm : BitVec 16)

def scaledLsr : Counted (BitVec 32) :=
  if shiftImm = 0 then pure 0 else shr host value shiftImm.toNat

def scaledAsr : Counted (BitVec 32) :=
  if shiftImm = 0 then do
    let sign ← getBit value 31
    pure (if sign = 1 then 0xFFFFFFFF else 0)
  else asr host value (shiftImm.setWidth 8)

/-- The right operand of the `||` in RRX is evaluated only for a zero on the left. -/
def scaledRor : Counted (BitVec 32) :=
  if shiftImm = 0 then do
    let carry ← getBit (armReadCpsr p) CpsrBit.C
    let top ← shl host carry 31
    if top ≠ 0 then pure 1
    else do
      let half ← shr host value 1
      pure (if half ≠ 0 then 1 else 0)
  else ror host value (shiftImm.setWidth 8)

end ScaledCases

def scaledIndex (host : Host) (p : ArmCore) (shift shiftImm rm : BitVec 16)
    : Counted (BitVec 32) :=
  let value := armReadRegister p (rm.setWidth 8)
  if shift = 0b00 then shl host value shiftImm.toNat
  else do
    let index ← (if shift = 0b01 then scaledLsr host value shiftImm else pure 0)
    let index ← (if shift = 0b01 ∨ shift = 0b10 then scaledAsr host value shiftImm else pure index)
    if shift = 0b01 ∨ shift = 0b10 ∨ shift = 0b11 then scaledRor host p value shiftImm
    else pure index

/-- The offset `index` of `arm_load_store`. -/
def loadStoreIndex (host : Host) (p : ArmCore) (ins : BitVec 32) : Counted (BitVec 32) :=
  let I := Armator.getBit ins 25
  let P := Armator.getBit ins 24
  if P = 1 ∨ (P = 0 ∧ conditionPassed (armReadCpsr p) ins) then
    if I = 0 then pure (getBits ins 11 0)
    else
      scaledIndex host p ((getBits ins 6 5).setWidth 16) ((getBits ins 11 7).setWidth 16)
        ((getBits ins 3 0).setWidth 16)
  else pure 0

end Counted

/-- A call of one of the functions that execute an instruction with a shift. -/
inductive ShiftingCall where
  | dataProcessingShift
  | dataProcessingImmediateMsr (unset : UnsetMasks)
  | loadStore

/-- What the call returns, without its counts. -/
def ShiftingCall.run (call : ShiftingCall) (host : Host) (p : ArmCore) (ins : BitVec 32)
    : Int × ArmCore :=
  match call with
  | dataProcessingShift => armDataProcessingShift host p ins
  | dataProcessingImmediateMsr unset => armDataProcessingImmediateMsr host unset p ins
  | loadStore => armLoadStore host p ins

/-- The operand that the call computes first, and the rest of the function. -/
def ShiftingCall.counted (call : ShiftingCall) (host : Host) (p : ArmCore) (ins : BitVec 32)
    : Counted (Int × ArmCore) :=
  match call with
  | dataProcessingShift =>
      if conditionPassed (armReadCpsr p) ins then do
        let bitS : BitVec 8 := (getBit ins 20).setWidth 8
        let bitC : BitVec 8 := (getBit (armReadCpsr p) 29).setWidth 8
        let bitV : BitVec 8 := (getBit (armReadCpsr p) 28).setWidth 8
        let rd : BitVec 8 := ((ins >>> 12) &&& 0xf).setWidth 8
        let (isdataproc, val1, val2) ← Counted.decodeOperand host p ins
        if isdataproc = -1 then pure (ArmException.UNDEFINED_INSTRUCTION, p)
        else
          let opcode : BitVec 8 := ((ins >>> 21) &&& 0xf).setWidth 8
          pure (executeOpcode p opcode.toNat rd val1 val2 bitS bitC bitV)
      else pure (ArmException.UNDEFINED_INSTRUCTION, p)
  | dataProcessingImmediateMsr unset => do
      let _ ← Counted.applyRotationImm host ins
      pure (armDataProcessingImmediateMsr host unset p ins)
  | loadStore => do
      let _ ← Counted.loadStoreIndex host p ins
      pure (armLoadStore host p ins)

end Armator
