import Armator.Simulator.Util

/-! `registers.c`: the register file.
The array holds r0..r15, the CPSR at 16 and the SPSR at 17; there is one bank only.
-/

namespace Armator

structure Registers where
  data : Vector (BitVec 32) 18
  mode : BitVec 8
deriving DecidableEq

def registersCreate : Registers :=
  { data := Vector.replicate 18 0, mode := Mode.USR }

def getMode (r : Registers) : BitVec 8 :=
  r.mode

def currentModeHasSpsr (r : Registers) : Bool :=
  r.mode ≠ Mode.IRQ

def inAPrivilegedMode (r : Registers) : Bool :=
  r.mode ≠ Mode.SYS

def readRegister (r : Registers) (reg : BitVec 8) : BitVec 32 :=
  if _ : reg.toNat < 16 then r.data[reg.toNat] else 0

def readUsrRegister (r : Registers) (reg : BitVec 8) : BitVec 32 :=
  if _ : reg.toNat < 16 ∧ r.mode = Mode.USR then r.data[reg.toNat] else 0

def readCpsr (r : Registers) : BitVec 32 :=
  r.data[16]

def readSpsr (r : Registers) : BitVec 32 :=
  r.data[17]

def writeRegister (r : Registers) (reg : BitVec 8) (value : BitVec 32) : Registers :=
  if _ : reg.toNat < 16 then { r with data := r.data.set reg.toNat value } else r

def writeUsrRegister (r : Registers) (reg : BitVec 8) (value : BitVec 32) : Registers :=
  if _ : reg.toNat < 16 ∧ r.mode = Mode.USR then
    { r with data := r.data.set reg.toNat value }
  else r

def writeCpsr (r : Registers) (value : BitVec 32) : Registers :=
  { r with data := r.data.set 16 value }

def writeSpsr (r : Registers) (value : BitVec 32) : Registers :=
  { r with data := r.data.set 17 value }

variable (r : Registers) (reg other : BitVec 8) (value : BitVec 32)

/-- A general register keeps its value unless it is the one written. -/
@[simp, grind =]
theorem readRegister_writeRegister
    : readRegister (writeRegister r reg value) other
      = if reg = other ∧ other.toNat < 16 then value else readRegister r other := by
  by_cases hr : reg.toNat < 16 <;> by_cases ho : other.toNat < 16 <;>
    simp only [readRegister, writeRegister, hr, ho, dif_pos, dif_neg, and_true, and_false,
      if_false, not_false_eq_true]
  · simp only [Vector.getElem_set, BitVec.toNat_inj]
  · have different : reg ≠ other := fun h => hr (h ▸ ho)
    simp only [different, if_false]

@[simp, grind =]
theorem readRegister_writeCpsr : readRegister (writeCpsr r value) other = readRegister r other := by
  unfold readRegister writeCpsr
  split
  · next h => exact Vector.getElem_set_ne (by omega) (by omega) (by omega)
  · rfl

@[simp, grind =]
theorem readRegister_writeSpsr : readRegister (writeSpsr r value) other = readRegister r other := by
  unfold readRegister writeSpsr
  split
  · next h => exact Vector.getElem_set_ne (by omega) (by omega) (by omega)
  · rfl

@[simp, grind =]
theorem readCpsr_writeCpsr : readCpsr (writeCpsr r value) = value := by
  simp [readCpsr, writeCpsr]

@[simp, grind =]
theorem readCpsr_writeSpsr : readCpsr (writeSpsr r value) = readCpsr r := by
  simp [readCpsr, writeSpsr]

@[simp, grind =]
theorem readSpsr_writeCpsr : readSpsr (writeCpsr r value) = readSpsr r := by
  simp [readSpsr, writeCpsr]

@[simp, grind =]
theorem readSpsr_writeSpsr : readSpsr (writeSpsr r value) = value := by
  simp [readSpsr, writeSpsr]

@[simp, grind =]
theorem readCpsr_writeRegister : readCpsr (writeRegister r reg value) = readCpsr r := by
  unfold readCpsr writeRegister
  split
  · next h => exact Vector.getElem_set_ne (by omega) (by omega) (by omega)
  · rfl

@[simp, grind =]
theorem readSpsr_writeRegister : readSpsr (writeRegister r reg value) = readSpsr r := by
  unfold readSpsr writeRegister
  split
  · next h => exact Vector.getElem_set_ne (by omega) (by omega) (by omega)
  · rfl

@[simp, grind =]
theorem writeRegister_mode : (writeRegister r reg value).mode = r.mode := by
  unfold writeRegister
  split <;> rfl

@[simp, grind =]
theorem writeCpsr_mode : (writeCpsr r value).mode = r.mode := rfl

@[simp, grind =]
theorem writeSpsr_mode : (writeSpsr r value).mode = r.mode := rfl

@[simp, grind =]
theorem writeUsrRegister_mode : (writeUsrRegister r reg value).mode = r.mode := by
  unfold writeUsrRegister
  split <;> rfl

@[simp]
theorem readCpsr_writeUsrRegister : readCpsr (writeUsrRegister r reg value) = readCpsr r := by
  unfold readCpsr writeUsrRegister
  split
  · next h => exact Vector.getElem_set_ne (by omega) (by omega) (by omega)
  · rfl

/-- In user mode the user-register path is the plain one. -/
theorem writeUsrRegister_of_usr (usr : r.mode = Mode.USR)
    : writeUsrRegister r reg value = writeRegister r reg value := by
  by_cases hr : reg.toNat < 16 <;> simp [writeUsrRegister, writeRegister, usr, hr]

/-- In any other mode the user-register path drops the write. -/
theorem writeUsrRegister_of_not_usr (other : r.mode ≠ Mode.USR)
    : writeUsrRegister r reg value = r :=
  dif_neg fun h => other h.2

/-- Two register files that read the same everywhere are equal.
Witness: the eighteen array cells are the sixteen registers and the two PSRs.
-/
theorem Registers.ext_reads {first second : Registers}
    (registers : ∀ reg, readRegister first reg = readRegister second reg)
    (cpsr : readCpsr first = readCpsr second) (spsr : readSpsr first = readSpsr second)
    (mode : first.mode = second.mode)
    : first = second := by
  obtain ⟨data, _⟩ := first
  obtain ⟨data', _⟩ := second
  have same : data = data' := by
    apply Vector.ext
    intro i hi
    by_cases below : i < 16
    · have cell := registers (BitVec.ofNat 8 i)
      have index : (BitVec.ofNat 8 i).toNat = i := by
        rw [BitVec.toNat_ofNat]
        omega
      simpa only [readRegister, index, below, dif_pos] using cell
    · obtain rfl | rfl : i = 16 ∨ i = 17 := by omega
      · exact cpsr
      · exact spsr
  simp only [Registers.mk.injEq]
  exact ⟨same, mode⟩

/-- The last of two CPSR writes wins. -/
theorem writeCpsr_writeCpsr (r : Registers) (first second : BitVec 32)
    : writeCpsr (writeCpsr r first) second = writeCpsr r second := by
  apply Registers.ext_reads <;> simp

/-- Writing the CPSR's own value changes nothing. -/
theorem writeCpsr_readCpsr (r : Registers) : writeCpsr r (readCpsr r) = r := by
  apply Registers.ext_reads <;> simp

/-- Writing a register's own value changes nothing. -/
theorem writeRegister_readRegister (r : Registers) (reg : BitVec 8)
    : writeRegister r reg (readRegister r reg) = r := by
  apply Registers.ext_reads
  · intro other
    rw [readRegister_writeRegister]
    split
    · next same => rw [same.1]
    · rfl
  all_goals simp

/-- General registers and the CPSR are separate cells. -/
theorem writeRegister_writeCpsr (r : Registers) (reg : BitVec 8) (value psr : BitVec 32)
    : writeRegister (writeCpsr r psr) reg value = writeCpsr (writeRegister r reg value) psr := by
  apply Registers.ext_reads <;> simp

end Armator
