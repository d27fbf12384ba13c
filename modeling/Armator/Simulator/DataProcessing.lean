import Armator.Simulator.Core

/-! `arm_data_processing.c`: the sixteen data-processing opcodes and their operand.
A C function that returns a value and changes the processor gives both, value first; a
`uint8_t` flag argument is false when it is 0.
-/

namespace Armator

/-- `!c` of a `uint8_t`, in `uint32_t` arithmetic. -/
def cNot (c : BitVec 8) : BitVec 32 :=
  if c = 0 then 1 else 0

def updateZN (p : ArmCore) (result : BitVec 32) : ArmCore :=
  let p :=
    if result = 0 then armWriteCpsr p (armReadCpsr p ||| (1#32 <<< 30))
    else armWriteCpsr p (armReadCpsr p &&& ~~~(1#32 <<< 30))
  if getBit result 31 = 1 then armWriteCpsr p (armReadCpsr p ||| (1#32 <<< 31))
  else armWriteCpsr p (armReadCpsr p &&& ~~~(1#32 <<< 31))

/-- The block "indicateur V" that `arm_cmp`, `arm_cmn`, `arm_rsb` and `arm_rsc` repeat. -/
def updateV (p : ArmCore) (overflow : Bool) : ArmCore :=
  if overflow then armWriteCpsr p (armReadCpsr p ||| (1#32 <<< 28))
  else armWriteCpsr p (armReadCpsr p &&& ~~~(1#32 <<< 28))

/-- The block "indicateur C" of the same functions: `c` is the old carry. -/
def updateC (p : ArmCore) (room addend : BitVec 32) (c : BitVec 8) : ArmCore :=
  let p :=
    if room < addend ∧ c = 0 then armWriteCpsr p (setBit (armReadCpsr p) 29) else p
  if room ≥ addend ∧ c ≠ 0 then armWriteCpsr p (clrBit (armReadCpsr p) 29) else p

def armTeq (p : ArmCore) (val1 val2 : BitVec 32) : ArmCore :=
  let result := val1 ^^^ val2
  let p := updateZN p result
  armWriteCpsr p (armReadCpsr p &&& ~~~(1#32 <<< 29))

def armTst (p : ArmCore) (val1 val2 : BitVec 32) : ArmCore :=
  let result := val1 &&& val2
  let p := updateZN p result
  armWriteCpsr p (armReadCpsr p &&& ~~~(1#32 <<< 29))

/-- `arm_cmp`; the parameter `v` of the source is not used. -/
def armCmp (p : ArmCore) (val1 val2 : BitVec 32) (c _v : BitVec 8) : ArmCore :=
  let result := val1 - val2
  let p := updateZN p result
  let p := updateV p
    (getBit val1 31 = getBit val2 31 ∧ getBit val1 31 ≠ getBit result 31)
  updateC p (0xffffffff - val1) (~~~val2 + 0x1) c

def armCmn (p : ArmCore) (val1 val2 : BitVec 32) (c : BitVec 8) : ArmCore :=
  let result := val1 + val2
  let p := updateZN p result
  let p := updateV p
    (getBit val1 31 = getBit val2 31 ∧ getBit val1 31 ≠ getBit result 31)
  updateC p (0xffffffff - val1) val2 c

def armAnd (p : ArmCore) (val1 val2 : BitVec 32) (s : BitVec 8) : BitVec 32 × ArmCore :=
  (val1 &&& val2, if s ≠ 0 then armTst p val1 val2 else p)

def armEor (p : ArmCore) (val1 val2 : BitVec 32) (s : BitVec 8) : BitVec 32 × ArmCore :=
  (val1 ^^^ val2, if s ≠ 0 then armTeq p val1 val2 else p)

def armSub (p : ArmCore) (val1 val2 : BitVec 32) (s c v : BitVec 8) : BitVec 32 × ArmCore :=
  (val1 - val2, if s ≠ 0 then armCmp p val1 val2 c v else p)

def armOrr (p : ArmCore) (val1 val2 : BitVec 32) (s : BitVec 8) : BitVec 32 × ArmCore :=
  let result := val1 ||| val2
  (result, if s ≠ 0 then updateZN p result else p)

/-- `arm_add`; its flags come from `arm_cmp`. -/
def armAdd (p : ArmCore) (val1 val2 : BitVec 32) (s c v : BitVec 8) : BitVec 32 × ArmCore :=
  (val1 + val2, if s ≠ 0 then armCmp p val1 val2 c v else p)

def armBic (p : ArmCore) (val1 val2 : BitVec 32) (s : BitVec 8) : BitVec 32 × ArmCore :=
  (val1 &&& ~~~val2, if s ≠ 0 then armTst p val1 (~~~val2) else p)

def armSbc (p : ArmCore) (val1 val2 : BitVec 32) (c s v : BitVec 8) : BitVec 32 × ArmCore :=
  (val1 - val2 - cNot c,
    if s ≠ 0 then armCmp p val1 (val2 - ~~~(getBit (armReadCpsr p) 29)) c v else p)

def armAdc (p : ArmCore) (val1 val2 : BitVec 32) (c s : BitVec 8) : BitVec 32 × ArmCore :=
  (val1 + val2 + c.setWidth 32,
    if s ≠ 0 then armCmn p val1 (val2 + getBit (armReadCpsr p) 29) c else p)

def armMov (p : ArmCore) (rd : BitVec 8) (val2 : BitVec 32) (s : BitVec 8) : ArmCore :=
  let p := armWriteRegister p rd val2
  let result := armReadRegister p rd
  if s ≠ 0 then updateZN p result else p

def armMvn (p : ArmCore) (rd : BitVec 8) (val : BitVec 32) (s : BitVec 8) : ArmCore :=
  let p := armWriteRegister p rd (~~~val)
  let result := armReadRegister p rd
  if s ≠ 0 then updateZN p result else p

/-- `arm_rsb`; the parameter `v` of the source is not used. -/
def armRsb (p : ArmCore) (rd : BitVec 8) (val1 val2 : BitVec 32) (s c _v : BitVec 8)
    : ArmCore :=
  let result := val1 - val2
  let p := armWriteRegister p rd result
  if s ≠ 0 then
    let p := updateZN p result
    let p := updateC p (0xffffffff - val2) (~~~val1 + 0x1) c
    updateV p (getBit val2 31 = getBit val1 31 ∧ getBit val2 31 ≠ getBit result 31)
  else p

def armRsc (p : ArmCore) (rd : BitVec 8) (val1 val2 : BitVec 32) (s c : BitVec 8)
    : ArmCore :=
  let result := val2 - val1 - cNot c
  let p := armWriteRegister p rd result
  if s ≠ 0 then
    let p := updateZN p result
    let p := updateC p (0xffffffff - val2 - c.setWidth 32) (~~~val1 + 0x2) c
    updateV p
      (getBit val2 31 = getBit val2 31 ∧ getBit val2 31 = ~~~(getBit (armReadCpsr p) 29)
        ∧ getBit val2 31 ≠ getBit result 31)
  else p

/-- `apply_rotation_imm`; `immed_8` is promoted to `int` before both shifts. -/
def applyRotationImm (host : Host) (ins : BitVec 32) : BitVec 32 :=
  let rotationImm : BitVec 8 := ((ins &&& 0xf00) >>> 8).setWidth 8
  let immed8 : BitVec 8 := (ins &&& 0xff).setWidth 8
  if rotationImm ≠ 0 then
    host.shr (immed8.setWidth 32) (rotationImm.toNat * 2) |||
      host.shl (immed8.setWidth 32) (8 - rotationImm.toNat * 2)
  else immed8.setWidth 32

-- the shift types of `arm_constants.h`
namespace ShiftType
abbrev LSL : BitVec 8 := 0
abbrev LSR : BitVec 8 := 1
abbrev ASR : BitVec 8 := 2
abbrev ROR : BitVec 8 := 3
end ShiftType

/-- The `switch` of `decode_operand` on the shift type. -/
def applyShift (host : Host) (shift : BitVec 8) (value : BitVec 32) (valShift : BitVec 8)
    : BitVec 32 :=
  if shift = ShiftType.LSL then host.shl value valShift.toNat
  else if shift = ShiftType.LSR then host.shr value valShift.toNat
  else if shift = ShiftType.ASR then asr host value valShift
  else if shift = ShiftType.ROR then ror host value valShift
  else value

/-- `decode_operand`: the status and the final `*val_1` and `*val_2`. -/
def decodeOperand (host : Host) (p : ArmCore) (ins : BitVec 32)
    : Int × BitVec 32 × BitVec 32 :=
  let rn := (ins >>> 16) &&& 0xf
  let bit25 : BitVec 8 := (getBit ins 25).setWidth 8
  let bit7 : BitVec 8 := (getBit ins 7).setWidth 8
  let bit4 : BitVec 8 := (getBit ins 4).setWidth 8
  let val1 := armReadRegister p (rn.setWidth 8)
  if bit25 = 1 then (0, val1, applyRotationImm host ins)
  else
    let rm := ins &&& 0xf
    -- the type field has two bits, the mask keeps the upper one
    let shift : BitVec 8 := ((ins >>> 5) &&& 2).setWidth 8
    let val2 := armReadRegister p (rm.setWidth 8)
    if bit4 = 0 then
      let valShift : BitVec 8 := ((ins >>> 7) &&& 31).setWidth 8
      (0, val1, applyShift host shift val2 valShift)
    else if bit7 = 0 then
      let rs := (ins >>> 8) &&& 0xf
      let valShift : BitVec 8 := (armReadRegister p (rs.setWidth 8)).setWidth 8
      (0, val1, applyShift host shift val2 valShift)
    else (-1, val1, val2)

/-- The `switch` of `arm_data_processing_shift` on the opcode, with its final write of the
returned result.
-/
def executeOpcode (p : ArmCore) (opcode : Nat) (rd : BitVec 8) (val1 val2 : BitVec 32)
    (bitS bitC bitV : BitVec 8)
    : Int × ArmCore :=
  let writeBack (computed : BitVec 32 × ArmCore) : Int × ArmCore :=
    (0, armWriteRegister computed.2 rd computed.1)
  match opcode with
  | 0 => writeBack (armAnd p val1 val2 bitS)
  | 1 => writeBack (armEor p val1 val2 bitS)
  | 2 => writeBack (armSub p val1 val2 bitS bitC bitV)
  | 3 => (0, armRsb p rd val1 val2 bitS bitC bitV)
  | 4 => writeBack (armAdd p val1 val2 bitS bitC bitV)
  | 5 => writeBack (armAdc p val1 val2 bitC bitS)
  | 6 => writeBack (armSbc p val1 val2 bitC bitS bitV)
  -- the call passes `val_1` as the register number and `rd` as the value
  | 7 => (0, armRsc p (val1.setWidth 8) (rd.setWidth 32) val2 bitS bitC)
  | 8 => (0, armTst p val1 val2)
  | 9 => (0, armTeq p val1 val2)
  | 10 => (0, armCmp p val1 val2 bitC bitV)
  | 11 => (0, armCmn p val1 val2 bitC)
  | 12 => writeBack (armOrr p val1 val2 bitS)
  | 13 => (0, armMov p rd val2 bitS)
  | 14 => writeBack (armBic p val1 val2 bitS)
  | 15 => (0, armMvn p rd val2 bitS)
  | _ => (ArmException.UNDEFINED_INSTRUCTION, p)

def armDataProcessingShift (host : Host) (p : ArmCore) (ins : BitVec 32) : Int × ArmCore :=
  if conditionPassed (armReadCpsr p) ins then
    let bitS : BitVec 8 := (getBit ins 20).setWidth 8
    let bitC : BitVec 8 := (getBit (armReadCpsr p) 29).setWidth 8
    let bitV : BitVec 8 := (getBit (armReadCpsr p) 28).setWidth 8
    let rd : BitVec 8 := ((ins >>> 12) &&& 0xf).setWidth 8
    let (isdataproc, val1, val2) := decodeOperand host p ins
    if isdataproc = -1 then (ArmException.UNDEFINED_INSTRUCTION, p)
    else
      let opcode : BitVec 8 := ((ins >>> 21) &&& 0xf).setWidth 8
      executeOpcode p opcode.toNat rd val1 val2 bitS bitC bitV
  else (ArmException.UNDEFINED_INSTRUCTION, p)

/-- What the uninitialized masks of `arm_data_processing_immediate_msr` hold. -/
structure UnsetMasks where
  tmp : BitVec 32
  tmp2 : BitVec 32
  tmp3 : BitVec 32
  tmp4 : BitVec 32

open PsrMask in
/-- `arm_data_processing_immediate_msr`; the mask of a byte is assigned for a set field bit only. -/
def armDataProcessingImmediateMsr (host : Host) (unset : UnsetMasks) (p : ArmCore)
    (ins : BitVec 32)
    : Int × ArmCore :=
  let valRotated := applyRotationImm host ins
  let bitR : BitVec 8 := (getBit ins 22).setWidth 8
  let fieldC : BitVec 8 := (getBit ins 16).setWidth 8
  let fieldX : BitVec 8 := (getBit ins 17).setWidth 8
  let fieldS : BitVec 8 := (getBit ins 18).setWidth 8
  let fieldF : BitVec 8 := (getBit ins 19).setWidth 8
  if conditionPassed (armReadCpsr p) ins then
    if getBits ins 23 5 = 0b00110 ∧ getBits ins 20 2 = 0b10 then
      if valRotated &&& UnallocMask ≠ 0 then (ArmException.UNDEFINED_INSTRUCTION, p)
      else
        let tmp := if fieldC ≠ 0 then 0x000000FF else unset.tmp
        let tmp2 := if fieldX ≠ 0 then 0x0000FF00 else unset.tmp2
        let tmp3 := if fieldS ≠ 0 then 0x00FF0000 else unset.tmp3
        let tmp4 := if fieldF ≠ 0 then 0xFF000000 else unset.tmp4
        let bytemask := tmp ||| tmp2 ||| tmp3 ||| tmp4
        if bitR = 0 then
          if armInAPrivilegedMode p then
            if valRotated &&& StateMask ≠ 0 then (ArmException.UNDEFINED_INSTRUCTION, p)
            else
              let mask := bytemask &&& (UserMask ||| PrivMask)
              (0, armWriteCpsr p ((armReadCpsr p &&& ~~~mask) ||| (valRotated &&& mask)))
          else
            let mask := bytemask &&& UserMask
            (0, armWriteCpsr p ((armReadCpsr p &&& ~~~mask) ||| (valRotated &&& mask)))
        else if armCurrentModeHasSpsr p then
          let mask := bytemask &&& (UserMask ||| PrivMask ||| StateMask)
          (0, armWriteSpsr p ((armReadSpsr p &&& ~~~mask) ||| (valRotated &&& mask)))
        else (ArmException.UNDEFINED_INSTRUCTION, p)
    else (ArmException.UNDEFINED_INSTRUCTION, p)
  else (ArmException.UNDEFINED_INSTRUCTION, p)

end Armator
