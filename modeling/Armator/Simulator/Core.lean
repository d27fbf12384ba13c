import Armator.Simulator.Memory
import Armator.Simulator.Registers

/-! `arm_core.c` and `arm_exception.c`: the processor state and its accessors.
The calls that only write the trace are left out; the cycle count they print is kept.
-/

namespace Armator

structure ArmCore where
  cycleCount : BitVec 32
  reg : Registers
  mem : Memory

def armCurrentModeHasSpsr (p : ArmCore) : Bool :=
  currentModeHasSpsr p.reg

def armInAPrivilegedMode (p : ArmCore) : Bool :=
  inAPrivilegedMode p.reg

/-- `arm_read_register`: the stored pc is one instruction ahead after the fetch, so 4 more
makes instructions read their own address plus 8.
-/
def armReadRegister (p : ArmCore) (reg : BitVec 8) : BitVec 32 :=
  let value := readRegister p.reg reg
  if reg = 15 then (value + 4) &&& 0xFFFFFFFD else value

def armReadCpsr (p : ArmCore) : BitVec 32 :=
  readCpsr p.reg

def armReadSpsr (p : ArmCore) : BitVec 32 :=
  readSpsr p.reg

def armWriteRegister (p : ArmCore) (reg : BitVec 8) (value : BitVec 32) : ArmCore :=
  { p with reg := writeRegister p.reg reg value }

def armWriteUsrRegister (p : ArmCore) (reg : BitVec 8) (value : BitVec 32) : ArmCore :=
  { p with reg := writeUsrRegister p.reg reg value }

def armWriteCpsr (p : ArmCore) (value : BitVec 32) : ArmCore :=
  { p with reg := writeCpsr p.reg value }

def armWriteSpsr (p : ArmCore) (value : BitVec 32) : ArmCore :=
  { p with reg := writeSpsr p.reg value }

/-- `arm_fetch`: the status, the instruction word in `*value`, and the state with the pc
moved on, whether or not the read succeeded.
-/
def armFetch (host : Host) (p : ArmCore) (value : BitVec 32) : Int × BitVec 32 × ArmCore :=
  let p := { p with cycleCount := p.cycleCount + 1 }
  let address := armReadRegister p 15 - 4
  let (result, value) := memoryReadWord host p.mem address value
  (result, value, armWriteRegister p 15 (address + 4))

def armReadByte (p : ArmCore) (address : BitVec 32) (value : BitVec 8) : Int × BitVec 8 :=
  memoryReadByte p.mem address value

def armReadHalf (host : Host) (p : ArmCore) (address : BitVec 32) (value : BitVec 16)
    : Int × BitVec 16 :=
  memoryReadHalf host p.mem address value

def armReadWord (host : Host) (p : ArmCore) (address : BitVec 32) (value : BitVec 32)
    : Int × BitVec 32 :=
  memoryReadWord host p.mem address value

def armWriteByte (p : ArmCore) (address : BitVec 32) (value : BitVec 8) : Int × ArmCore :=
  let (result, mem) := memoryWriteByte p.mem address value
  (result, { p with mem })

def armWriteHalf (host : Host) (p : ArmCore) (address : BitVec 32) (value : BitVec 16)
    : Int × ArmCore :=
  let (result, mem) := memoryWriteHalf host p.mem address value
  (result, { p with mem })

def armWriteWord (host : Host) (p : ArmCore) (address : BitVec 32) (value : BitVec 32)
    : Int × ArmCore :=
  let (result, mem) := memoryWriteWord host p.mem address value
  (result, { p with mem })

/-- `arm_exception`: only a reset has an effect. The EE bit of CP15 is 0, so bit 9 of the
CPSR is clear.
-/
def armException (p : ArmCore) (exception : BitVec 8) : ArmCore :=
  if exception = BitVec.ofInt 8 ArmException.RESET then
    armWriteUsrRegister (armWriteCpsr p (0x1d3 ||| (0 <<< 9))) 15 0
  else p

def armCreate (mem : Memory) : ArmCore :=
  let p := { cycleCount := 0, reg := registersCreate, mem }
  { armException p (BitVec.ofInt 8 ArmException.RESET) with cycleCount := 0 }

section Accessors

variable (p : ArmCore) (reg : BitVec 8) (value : BitVec 32)

@[simp]
theorem armWriteRegister_mem : (armWriteRegister p reg value).mem = p.mem := rfl

@[simp]
theorem armWriteUsrRegister_mem : (armWriteUsrRegister p reg value).mem = p.mem := rfl

@[simp]
theorem armWriteCpsr_mem : (armWriteCpsr p value).mem = p.mem := rfl

@[simp]
theorem armWriteSpsr_mem : (armWriteSpsr p value).mem = p.mem := rfl

@[simp]
theorem armReadCpsr_armWriteRegister
    : armReadCpsr (armWriteRegister p reg value) = armReadCpsr p :=
  readCpsr_writeRegister _ _ _

@[simp]
theorem armReadCpsr_armWriteCpsr : armReadCpsr (armWriteCpsr p value) = value :=
  readCpsr_writeCpsr _ _

@[simp]
theorem armReadSpsr_armWriteRegister
    : armReadSpsr (armWriteRegister p reg value) = armReadSpsr p :=
  readSpsr_writeRegister _ _ _

@[simp]
theorem armReadSpsr_armWriteCpsr : armReadSpsr (armWriteCpsr p value) = armReadSpsr p :=
  readSpsr_writeCpsr _ _

@[simp]
theorem armReadRegister_armWriteCpsr
    : armReadRegister (armWriteCpsr p value) reg = armReadRegister p reg := by
  simp only [armReadRegister, armWriteCpsr, readRegister_writeCpsr]

@[simp]
theorem armWriteRegister_reg
    : (armWriteRegister p reg value).reg = writeRegister p.reg reg value :=
  rfl

@[simp]
theorem armWriteUsrRegister_reg
    : (armWriteUsrRegister p reg value).reg = writeUsrRegister p.reg reg value :=
  rfl

@[simp]
theorem armWriteCpsr_reg : (armWriteCpsr p value).reg = writeCpsr p.reg value := rfl

theorem armWriteCpsr_armWriteCpsr (first second : BitVec 32)
    : armWriteCpsr (armWriteCpsr p first) second = armWriteCpsr p second := by
  simp only [armWriteCpsr, writeCpsr_writeCpsr]

theorem armWriteCpsr_armReadCpsr : armWriteCpsr p (armReadCpsr p) = p := by
  simp only [armWriteCpsr, armReadCpsr, writeCpsr_readCpsr]

theorem armWriteRegister_armWriteCpsr (psr : BitVec 32)
    : armWriteRegister (armWriteCpsr p psr) reg value
      = armWriteCpsr (armWriteRegister p reg value) psr := by
  simp only [armWriteRegister, armWriteCpsr, writeRegister_writeCpsr]

/-- Writing a register's stored value changes nothing. -/
theorem armWriteRegister_self : armWriteRegister p reg (readRegister p.reg reg) = p := by
  simp only [armWriteRegister, writeRegister_readRegister]

/-- Registers other than the pc read as they are stored. -/
theorem armReadRegister_of_ne (notPc : reg ≠ 15)
    : armReadRegister p reg = readRegister p.reg reg := by
  simp only [armReadRegister, notPc, if_false]

end Accessors

/-- A write access changes the memory and nothing else. -/
theorem armWriteWord_eq (host : Host) (p : ArmCore) (address value : BitVec 32)
    : armWriteWord host p address value
      = ((memoryWriteWord host p.mem address value).1,
          { p with mem := (memoryWriteWord host p.mem address value).2 }) :=
  rfl

/-- The mask of the pc only clears bit 1. -/
theorem and_pcMask_of_bit (x : BitVec 32) (clear : x.getLsbD 1 = false)
    : x &&& 0xFFFFFFFD = x := by
  apply BitVec.eq_of_getLsbD_eq
  intro j hj
  rw [BitVec.getLsbD_and]
  interval_cases j <;> simp_all

/-- A word read at an aligned pc gives the address of the instruction plus 8. -/
theorem and_pcMask_of_aligned (x : BitVec 32) (aligned : x.toNat % 4 = 0)
    : x &&& 0xFFFFFFFD = x := by
  refine and_pcMask_of_bit x ?_
  rw [BitVec.getLsbD, Nat.testBit, Nat.shiftRight_eq_div_pow]
  simp
  omega

end Armator
