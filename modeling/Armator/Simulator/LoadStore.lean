import Armator.Simulator.Core

/-! `arm_load_store.c`: single, halfword and multiple transfers.
Every decoder gives the `int` it returns and the new state. What it prints is left out.
-/

namespace Armator

/-- What a narrow pointer to the start of `value` points at, as `*(uint8_t *)&value`. -/
def Host.viewFirst (host : Host) (w : Nat) (value : BitVec 32) : BitVec w :=
  ByteStore.load host.order w (host.order.byteOf value) 0

/-- `value` after an assignment through such a pointer. -/
def Host.updateFirst (host : Host) (value : BitVec 32) {w : Nat} (part : BitVec w)
    : BitVec 32 :=
  host.order.ofBytes 32 (ByteStore.store host.order (host.order.byteOf value) 0 part)

/-- On a little-endian host, assigning through a narrow pointer into a zero word gives the
zero-extended value.
-/
theorem Host.updateFirst_zero {host : Host} (little : host.order = .little) {w : Nat}
    (hw : 8 ∣ w) (part : BitVec w)
    : host.updateFirst 0 part = part.setWidth 32 := by
  apply BitVec.eq_of_getLsbD_eq
  intro j hj
  have whole : 8 * (j / 8) + j % 8 = j := by omega
  have below : j % 8 < 8 := Nat.mod_lt j (by decide)
  have first : ByteOrder.little.place (32 / 8) (j / 8) = j / 8 := rfl
  rw [Host.updateFirst, little, ByteOrder.getLsbD_ofBytes, BitVec.getLsbD_setWidth, first]
  congr 1
  by_cases inside : j / 8 < w / 8
  · have byte : ByteStore.store .little (ByteOrder.little.byteOf (0 : BitVec 32)) 0 part (0 + j / 8)
        = ByteOrder.little.byteOf part (j / 8) :=
      ByteStore.store_inside inside
    rw [Nat.zero_add] at byte
    rw [byte, ByteOrder.getLsbD_byteOf]
    simp only [ByteOrder.place, whole, below, decide_true, Bool.true_and]
  · rw [ByteStore.store_outside (by omega), ByteOrder.getLsbD_byteOf,
      BitVec.getLsbD_of_ge part j (by omega), BitVec.ofNat_eq_ofNat, BitVec.getLsbD_zero,
      Bool.and_false]

/-- On a big-endian host such an assignment sets the upper end of the word. -/
theorem Host.updateFirst_zero_big {host : Host} (big : host.order = .big) {w : Nat}
    (hw : 8 ∣ w) (narrow : w ≤ 32) (part : BitVec w)
    : host.updateFirst 0 part = part.setWidth 32 <<< (32 - w) := by
  apply BitVec.eq_of_getLsbD_eq
  intro j hj
  have below : j % 8 < 8 := Nat.mod_lt j (by decide)
  have last : ByteOrder.big.place (32 / 8) (j / 8) = 3 - j / 8 := rfl
  rw [Host.updateFirst, big, ByteOrder.getLsbD_ofBytes, BitVec.getLsbD_shiftLeft,
    BitVec.getLsbD_setWidth, last]
  by_cases inside : 3 - j / 8 < w / 8
  · have byte : ByteStore.store .big (ByteOrder.big.byteOf (0 : BitVec 32)) 0 part
          (0 + (3 - j / 8))
        = ByteOrder.big.byteOf part (3 - j / 8) :=
      ByteStore.store_inside inside
    have bit : 8 * ByteOrder.big.place (w / 8) (3 - j / 8) + j % 8 = j - (32 - w) := by
      simp only [ByteOrder.place]
      omega
    have upper : ¬ j < 32 - w := by omega
    have top : j - (32 - w) < 32 := by omega
    rw [Nat.zero_add] at byte
    rw [byte, ByteOrder.getLsbD_byteOf, bit]
    simp only [below, hj, upper, top, decide_true, decide_false, Bool.true_and, Bool.not_false]
  · have lower : j < 32 - w := by omega
    rw [ByteStore.store_outside (by omega), ByteOrder.getLsbD_byteOf]
    simp only [lower, decide_true, Bool.not_true, Bool.and_false, Bool.false_and,
      BitVec.ofNat_eq_ofNat, BitVec.getLsbD_zero]

/-- The `switch` of `arm_load_store` on the shift type. Only the first case ends with a
`break`: the others fall through to the last one, which assigns `index` again.
-/
def scaledIndex (host : Host) (p : ArmCore) (shift shiftImm rm : BitVec 16) : BitVec 32 :=
  let value := armReadRegister p (rm.setWidth 8)
  if shift = 0b00 then host.shl value shiftImm.toNat
  else
    let index : BitVec 32 := 0
    let index :=
      if shift = 0b01 then
        if shiftImm = 0 then 0 else host.shr value shiftImm.toNat
      else index
    let index :=
      if shift = 0b01 ∨ shift = 0b10 then
        if shiftImm = 0 then
          if getBit value 31 = 1 then 0xFFFFFFFF else 0
        else asr host value (shiftImm.setWidth 8)
      else index
    if shift = 0b01 ∨ shift = 0b10 ∨ shift = 0b11 then
      if shiftImm = 0 then
        -- RRX, written with the logical `||`
        if getBit (armReadCpsr p) CpsrBit.C <<< 31 ≠ 0 ∨ value >>> 1 ≠ 0 then 1 else 0
      else ror host value (shiftImm.setWidth 8)
    else index

/-- The offset `index` of `arm_load_store`. -/
def loadStoreIndex (host : Host) (p : ArmCore) (ins : BitVec 32) : BitVec 32 :=
  let I := getBit ins 25
  let P := getBit ins 24
  if P = 1 ∨ (P = 0 ∧ conditionPassed (armReadCpsr p) ins) then
    if I = 0 then getBits ins 11 0
    else
      scaledIndex host p ((getBits ins 6 5).setWidth 16) ((getBits ins 11 7).setWidth 16)
        ((getBits ins 3 0).setWidth 16)
  else 0

/-- The transfer address of `arm_load_store`. -/
def loadStoreAddress (p : ArmCore) (ins index : BitVec 32) : BitVec 32 :=
  let rn := (getBits ins 19 16).setWidth 8
  let P := getBit ins 24
  let U := getBit ins 23
  if U = 1 then
    if P = 1 then armReadRegister p rn + index else armReadRegister p rn
  else
    if P = 1 then armReadRegister p rn - index else armReadRegister p rn

/-- The base write-back of `arm_load_store`. -/
def loadStoreWriteBack (p : ArmCore) (ins index address : BitVec 32) : ArmCore :=
  let rn := (getBits ins 19 16).setWidth 8
  let P := getBit ins 24
  let U := getBit ins 23
  let W := getBit ins 21
  let p :=
    if P = 0 ∧ conditionPassed (armReadCpsr p) ins then
      let moved := if U ≠ 0 then armReadRegister p rn + index else armReadRegister p rn - index
      if W = 1 then armWriteUsrRegister p rn moved else armWriteRegister p rn moved
    else p
  if P = 1 ∧ conditionPassed (armReadCpsr p) ins ∧ W = 1 then
    armWriteUsrRegister p rn address
  else p

/-- The value an LDR or LDRB ends up with: the `int` status of the read is dropped. -/
def loadedValue (host : Host) (p : ArmCore) (ins address : BitVec 32) : BitVec 32 :=
  let B := getBit ins 22
  let value : BitVec 32 := 0
  if B = 1 then
    host.updateFirst value (armReadByte p address (host.viewFirst 8 value)).2
  else (armReadWord host p address value).2

def armLoadStore (host : Host) (p : ArmCore) (ins : BitVec 32) : Int × ArmCore :=
  let rd := (getBits ins 15 12).setWidth 8
  let operateur := getBit ins 20
  let B := getBit ins 22
  let index := loadStoreIndex host p ins
  let address := loadStoreAddress p ins index
  let p := loadStoreWriteBack p ins index address
  if operateur = 1 then
    if conditionPassed (armReadCpsr p) ins then
      let value := loadedValue host p ins address
      if rd = 15 then
        let p := armWriteRegister p 15 (value &&& 0xFFFFFFFE)
        (0, armWriteCpsr p
          (if getBit value 0 ≠ 0 then setBit (armReadCpsr p) CpsrBit.T
          else clrBit (armReadCpsr p) CpsrBit.T))
      else (0, armWriteRegister p rd value)
    else (0, p)
  else
    if conditionPassed (armReadCpsr p) ins then
      if B = 1 then
        (0, (armWriteByte p address ((getBits (armReadRegister p rd) 7 0).setWidth 8)).2)
      else (0, (armWriteWord host p address (armReadRegister p rd)).2)
    else (0, p)

/-- `nb_reg`: the number of set bits among bits 0 to 14. -/
def nbReg (ins : BitVec 32) : BitVec 8 :=
  (List.range 15).foldl (fun nb i => nb + (getBit ins i).setWidth 8) 0

/-- Start address, end address and base write-back of `arm_load_store_multiple`. -/
def multipleAddresses (p : ArmCore) (ins : BitVec 32) : BitVec 32 × BitVec 32 × ArmCore :=
  let rn := (getBits ins 19 16).setWidth 8
  let P := getBit ins 24
  let U := getBit ins 23
  let W := getBit ins 21
  let nb : BitVec 32 := (nbReg ins).setWidth 32 * 4
  let writes : Prop := conditionPassed (armReadCpsr p) ins ∧ W = 1
  let base := armReadRegister p rn
  if P = 0 then
    if U = 1 then
      (base, base + nb - 4, if writes then armWriteRegister p rn (base + nb) else p)
    else
      (base - nb + 4, base, if writes then armWriteRegister p rn (base - nb) else p)
  else
    if U = 1 then
      (base + 4, base + nb, if writes then armWriteRegister p rn (base + nb) else p)
    else
      (base - nb, base - 4, if writes then armWriteRegister p rn (base - nb) else p)

/-- The variables that the loops of `arm_load_store_multiple` change. -/
structure MultipleState where
  p : ArmCore
  address : BitVec 32
  value : BitVec 32

/-- One iteration of the LDM loop; `value` keeps its old content when the read fails. -/
def ldmBody (host : Host) (ins : BitVec 32) (s : MultipleState) (ri : Nat) : MultipleState :=
  if getBit ins ri = 1 then
    let value := (armReadWord host s.p s.address s.value).2
    { p := armWriteRegister s.p (BitVec.ofNat 8 ri) value, address := s.address + 4, value }
  else s

/-- One iteration of the STM loop. -/
def stmBody (host : Host) (ins : BitVec 32) (s : MultipleState) (ri : Nat) : MultipleState :=
  if getBit ins ri = 1 then
    { s with
      p := (armWriteWord host s.p s.address (armReadRegister s.p (BitVec.ofNat 8 ri))).2
      address := s.address + 4 }
  else s

/-- The LDM part: the loop over r0..r14, then r15, then one more step of the address. -/
def ldmTransfer (host : Host) (ins : BitVec 32) (s : MultipleState) : MultipleState :=
  let s := (List.range 15).foldl (ldmBody host ins) s
  let s :=
    if getBit ins 15 = 1 then
      let value := (armReadWord host s.p s.address s.value).2
      -- the mask is written with the logical `&&`
      let p := armWriteRegister s.p 15 (if value ≠ 0 then 1 else 0)
      let p := armWriteCpsr p
        (if getBit value 0 ≠ 0 then setBit (armReadCpsr p) CpsrBit.T
        else clrBit (armReadCpsr p) CpsrBit.T)
      { s with p, value }
    else s
  { s with address := s.address + 4 }

/-- The STM part: a loop over r0..r14 only. -/
def stmTransfer (host : Host) (ins : BitVec 32) (s : MultipleState) : MultipleState :=
  (List.range 15).foldl (stmBody host ins) s

def armLoadStoreMultiple (host : Host) (p : ArmCore) (ins : BitVec 32) : Int × ArmCore :=
  let operateur := getBit ins 20
  let (startAddress, endAddress, p) := multipleAddresses p ins
  let s : MultipleState :=
    if conditionPassed (armReadCpsr p) ins then
      let s := { p, address := startAddress, value := 0 }
      if operateur = 1 then ldmTransfer host ins s else stmTransfer host ins s
    else { p, address := 0, value := 0 }
  if endAddress ≠ s.address - 4 then (1, s.p) else (0, s.p)

/-- The offset `offset_8` of `arm_load_store_half`, narrowed to a byte in both forms. -/
def halfOffset (p : ArmCore) (ins : BitVec 32) : BitVec 8 :=
  let rmImmedL := getBits ins 3 0
  let immedH := getBits ins 11 8
  let I := getBit ins 22
  if I = 1 then ((immedH <<< 4) ||| rmImmedL).setWidth 8
  else (armReadRegister p (rmImmedL.setWidth 8)).setWidth 8

/-- Transfer address of `arm_load_store_half`, and the state after both base updates. The
post-indexed update is not under the condition.
-/
def halfAddress (p : ArmCore) (ins : BitVec 32) : BitVec 32 × ArmCore :=
  let rn := (getBits ins 19 16).setWidth 8
  let rmImmedL := getBits ins 3 0
  let P := getBit ins 24
  let U := getBit ins 23
  let W := getBit ins 21
  let offset8 : BitVec 32 := (halfOffset p ins).setWidth 32
  let (address, p) :=
    if P = 1 then
      (if U ≠ 0 then armReadRegister p rn + offset8 else armReadRegister p rn - offset8, p)
    else
      (armReadRegister p rn, armWriteRegister p rn (armReadRegister p rn + rmImmedL))
  (address,
    if W = 1 ∧ conditionPassed (armReadCpsr p) ins then armWriteRegister p rn address else p)

def armLoadStoreHalf (host : Host) (p : ArmCore) (ins : BitVec 32) : Int × ArmCore :=
  let rd := (getBits ins 15 12).setWidth 8
  let operateur := getBit ins 20
  if getBits ins 7 4 ≠ 0b1011 then (1, p)
  else
    let (address, p) := halfAddress p ins
    if operateur = 1 then
      if conditionPassed (armReadCpsr p) ins then
        let value : BitVec 32 := 0
        let value :=
          host.updateFirst value (armReadHalf host p address (host.viewFirst 16 value)).2
        (0, armWriteRegister p rd value)
      else (0, p)
    else
      if conditionPassed (armReadCpsr p) ins then
        (0, (armWriteHalf host p address
          ((getBits (armReadRegister p rd) 15 0).setWidth 16)).2)
      else (0, p)

def armCoprocessorLoadStore (p : ArmCore) (_ins : BitVec 32) : Int × ArmCore :=
  (ArmException.UNDEFINED_INSTRUCTION, p)

end Armator
