import Armator.Architecture.SingleTransfer

/-! Load and store of a halfword as the architecture defines them. -/

namespace Armator

/-- The offset: the 8-bit immediate in bits 11 to 8 and 3 to 0, or all of Rm. -/
def halfTransferOffset (p : ArmCore) (ins : BitVec 32) : BitVec 32 :=
  if ins.getLsbD 22 then (ins.extractLsb' 8 4 ++ ins.extractLsb' 0 4).setWidth 32
  else armReadRegister p (registerField ins 0)

/-- The base plus or minus the offset. -/
def movedHalfBase (p : ArmCore) (ins : BitVec 32) : BitVec 32 :=
  let base := armReadRegister p (registerField ins 16)
  if ins.getLsbD 23 then base + halfTransferOffset p ins else base - halfTransferOffset p ins

/-- The address of the transfer: the moved base with P, the base itself without. -/
def halfTransferAddress (p : ArmCore) (ins : BitVec 32) : BitVec 32 :=
  if ins.getLsbD 24 then movedHalfBase p ins else armReadRegister p (registerField ins 16)

/-- The access alone: Rd gets the zero-extended halfword, or the low half of `value` is stored. -/
def halfAccess (p : ArmCore) (ins address value : BitVec 32) : ArmCore :=
  if ins.getLsbD 20 then
    armWriteRegister p (registerField ins 12)
      ((ByteStore.load p.mem.endianness 16 p.mem.data address.toNat).setWidth 32)
  else
    { p with
      mem := { p.mem with
        data :=
          ByteStore.store p.mem.endianness p.mem.data address.toNat (value.setWidth 16) } }

/-- The state after a halfword load or store. -/
def halfTransfer (p : ArmCore) (ins : BitVec 32) : ArmCore :=
  let q :=
    if UpdatesBase ins then armWriteRegister p (registerField ins 16) (movedHalfBase p ins) else p
  halfAccess q ins (halfTransferAddress p ins) (armReadRegister p (registerField ins 12))

end Armator
