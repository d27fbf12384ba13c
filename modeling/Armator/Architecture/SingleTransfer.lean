import Armator.Simulator.Core

/-! Load and store of a word or an unsigned byte as the architecture defines them, with the
12-bit offset or the offset Rm LSL imm5.
-/

namespace Armator

/-- A register number field. -/
def registerField (ins : BitVec 32) (low : Nat) : BitVec 8 :=
  (ins.extractLsb' low 4).setWidth 8

/-- What an instruction at address `place` reads in a register: its own address plus 8 in r15. -/
def operandRegister (p : ArmCore) (place : BitVec 32) (reg : BitVec 8) : BitVec 32 :=
  if reg = 15 then place + 8 else readRegister p.reg reg

/-- The offset: the low 12 bits, or Rm shifted left by bits 11 to 7. -/
def transferOffset (p : ArmCore) (place ins : BitVec 32) : BitVec 32 :=
  if ins.getLsbD 25 then
    operandRegister p place (registerField ins 0) <<< (ins.extractLsb' 7 5).toNat
  else (ins.extractLsb' 0 12).setWidth 32

/-- The base plus or minus the offset. -/
def indexedBase (p : ArmCore) (place ins : BitVec 32) : BitVec 32 :=
  let base := operandRegister p place (registerField ins 16)
  if ins.getLsbD 23 then base + transferOffset p place ins else base - transferOffset p place ins

/-- The address of the transfer: indexed with P, the base itself without. -/
def transferAddress (p : ArmCore) (place ins : BitVec 32) : BitVec 32 :=
  if ins.getLsbD 24 then indexedBase p place ins
  else operandRegister p place (registerField ins 16)

/-- The instructions that leave the indexed base in Rn: without P, or with W. -/
def UpdatesBase (ins : BitVec 32) : Prop :=
  ins.getLsbD 24 = false ∨ ins.getLsbD 21 = true

instance (ins : BitVec 32) : Decidable (UpdatesBase ins) :=
  inferInstanceAs (Decidable (_ ∨ _))

/-- The byte order a memory was created with. -/
def Memory.endianness (mem : Memory) : ByteOrder :=
  if mem.isBigEndian = 0 then .little else .big

/-- The state in which the transfer takes place: the pc is on the next instruction and the base
is updated.
-/
def beforeTransfer (p : ArmCore) (place ins : BitVec 32) : ArmCore :=
  let next := armWriteRegister { p with cycleCount := p.cycleCount + 1 } 15 (place + 4)
  if UpdatesBase ins then armWriteRegister next (registerField ins 16) (indexedBase p place ins)
  else next

/-- A state with Rd loaded: the pc takes the value without bit 0, which goes to the T bit. -/
def loadRegister (p : ArmCore) (rd : BitVec 8) (value : BitVec 32) : ArmCore :=
  if rd = 15 then
    armWriteCpsr (armWriteRegister p 15 (value &&& ~~~1))
      (Bits.putBit (armReadCpsr p) CpsrBit.T (value.getLsbD 0))
  else armWriteRegister p rd value

/-- The memory after a byte or a word is stored. -/
def Memory.stored (mem : Memory) (isByte : Bool) (address value : BitVec 32) : Memory :=
  if isByte then mem.setByte address (value.setWidth 8)
  else { mem with data := ByteStore.store mem.endianness mem.data address.toNat value }

/-- The byte, zero-extended, or the word at an address. -/
def Memory.loaded (mem : Memory) (isByte : Bool) (address : BitVec 32) : BitVec 32 :=
  if isByte then (mem.data address.toNat).setWidth 32
  else ByteStore.load mem.endianness 32 mem.data address.toNat

/-- The state after the instruction `ins` at address `place`. -/
def singleTransfer (p : ArmCore) (place ins : BitVec 32) : ArmCore :=
  let address := transferAddress p place ins
  let rd := registerField ins 12
  let q := beforeTransfer p place ins
  if ins.getLsbD 20 then loadRegister q rd (p.mem.loaded (ins.getLsbD 22) address)
  else
    { q with mem := p.mem.stored (ins.getLsbD 22) address (operandRegister q place rd) }

end Armator
