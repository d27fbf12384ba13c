import Armator.Correctness.Comparison
import Armator.Correctness.DataProcessingResults
import Armator.Correctness.ShiftCounts

/-! The flags of the arithmetic opcodes: what the code computes for each of them, and the
operands on which these are the flags of the exact sum or difference.
-/

namespace Armator

open Bits ExactArith Opcode

/-- The flags `arm_rsb` computes: those of the difference in the order of SUB, with the
operands exchanged in the carry and overflow tests.
-/
def rsbFlags (a b : BitVec 32) : Flags where
  n := (a - b).msb
  z := a - b = 0
  c := CarryOut b (-a) false
  v := b.msb = a.msb ∧ b.msb ≠ (a - b).msb

/-- The flags `arm_rsc` computes from the register number it subtracts: its overflow test
compares a bit with a complemented bit, and never holds.
-/
def rscFlags (number b : BitVec 32) (c : Bool) : Flags where
  n := (b - number - borrowIn c).msb
  z := b - number - borrowIn c = 0
  c := 0xffffffff - b - carryIn c < ~~~number + 2
  v := false

/-- The flags the code computes for an arithmetic opcode. -/
def codeFlags (op : Opcode) (rd : BitVec 8) (a b : BitVec 32) (c : Bool) : Flags :=
  match op with
  | RSB => rsbFlags a b
  | ADC => cmnFlags a (b + carryIn c)
  | SBC => cmpFlags a (b - ~~~carryIn c)
  | RSC => rscFlags (rd.setWidth 32) b c
  | CMN => cmnFlags a b
  | _ => cmpFlags a b

/-- The opcodes whose carry and overflow come from a sum or a difference. -/
def Opcode.isArithmetic (op : Opcode) : Bool :=
  op.isSum || op.isDifference

/-- The carry of the CPSR, read as the word that SBC and ADC combine with their operand. -/
theorem getBit_carry_eq (p : ArmCore)
    : getBit (armReadCpsr p) 29 = carryIn (carryFlag p) := by
  rw [getBit_eq, carryIn, carryFlag]

/-- `arm_rsb` with its flags: one register write and one CPSR write. -/
theorem armReadCpsr_armRsb (p : ArmCore) (rd : BitVec 8) (a b : BitVec 32)
    {s c : BitVec 8} (v : BitVec 8) (sets : s ≠ 0) (holds : HoldsCarry c (armReadCpsr p))
    : armReadCpsr (armRsb p rd a b s c v) = (rsbFlags a b).put (armReadCpsr p) := by
  have negated : ~~~a + 1 = -a := (BitVec.neg_eq_not_add a).symm
  have carry : decide (0xffffffff - b < -a) = (rsbFlags a b).c :=
    decide_eq_decide.mpr (allOnes_sub_lt_iff b (-a))
  simp only [armRsb, sets, ne_eq, not_false_eq_true, if_true, negated]
  rw [updateZN_eq, updateC_eq, updateV_eq, carry]
  · simp only [armReadCpsr_armWriteCpsr, armReadCpsr_armWriteRegister]
    rw [← putBits_eq_put, putBit_comm _ _ _ (by decide)]
    simp only [getBit_inj, rsbFlags, BitVec.msb_eq_getLsbD_last, Nat.reduceSub, ne_eq]
  · simpa [HoldsCarry, getLsbD_putBit] using holds

/-- `arm_rsc` with its flags: the overflow bit is always cleared. -/
theorem armReadCpsr_armRsc (p : ArmCore) (reg : BitVec 8) (number b : BitVec 32)
    {s : BitVec 8} (sets : s ≠ 0)
    : armReadCpsr (armRsc p reg number b s ((getBit (armReadCpsr p) 29).setWidth 8))
      = (rscFlags number b (carryFlag p)).put (armReadCpsr p) := by
  have never : ∀ (x y : BitVec 32) (i j : Nat), ¬ getBit x i = ~~~getBit y j := by
    intro x y i j
    rw [getBit_eq, getBit_eq]
    cases x.getLsbD i <;> cases y.getLsbD j <;> decide
  simp only [armRsc, sets, ne_eq, not_false_eq_true, if_true, never, false_and, and_false,
    decide_false, cNot_bitC_eq, bitC_setWidth_eq]
  rw [updateZN_eq, updateC_eq, updateV_eq]
  · simp only [armReadCpsr_armWriteCpsr, armReadCpsr_armWriteRegister]
    rw [← putBits_eq_put, putBit_comm _ _ _ (by decide)]
    rfl
  · have holds := holdsCarry_bitC (armReadCpsr p)
    simpa [HoldsCarry, getLsbD_putBit] using holds

/-- An arithmetic opcode that sets flags leaves the flags of `codeFlags` in the CPSR.
Witness: one case for each opcode; the register write of its result keeps the CPSR.
-/
theorem armReadCpsr_executeOpcode (p : ArmCore) {op : Opcode} (rd : BitVec 8)
    (a b : BitVec 32) {bitS : BitVec 8} (bitV : BitVec 8) (arithmetic : op.isArithmetic)
    (sets : op.writesResult → bitS ≠ 0)
    : armReadCpsr
        (executeOpcode p op.code rd a b bitS ((getBit (armReadCpsr p) 29).setWidth 8) bitV).2
      = (codeFlags op rd a b (carryFlag p)).put (armReadCpsr p) := by
  have holds := holdsCarry_bitC (armReadCpsr p)
  have cmp (x y : BitVec 32) := congrArg armReadCpsr (armCmp_eq p x y bitV holds)
  have cmn (x y : BitVec 32) := congrArg armReadCpsr (armCmn_eq p x y holds)
  simp only [armReadCpsr_armWriteCpsr] at cmp cmn
  cases op <;> try contradiction
  case CMP => exact cmp a b
  case CMN => exact cmn a b
  case RSB => exact armReadCpsr_armRsb p rd a b bitV (sets rfl) holds
  case RSC => exact armReadCpsr_armRsc p _ _ b (sets rfl)
  case SUB =>
    simp only [executeOpcode, code, armSub, sets rfl, ne_eq, not_false_eq_true, if_true,
      armReadCpsr_armWriteRegister, cmp, codeFlags]
  case ADD =>
    simp only [executeOpcode, code, armAdd, sets rfl, ne_eq, not_false_eq_true, if_true,
      armReadCpsr_armWriteRegister, cmp, codeFlags]
  case ADC =>
    simp only [executeOpcode, code, armAdc, sets rfl, ne_eq, not_false_eq_true, if_true,
      armReadCpsr_armWriteRegister, codeFlags, ← getBit_carry_eq, cmn]
  case SBC =>
    simp only [executeOpcode, code, armSbc, sets rfl, ne_eq, not_false_eq_true, if_true,
      armReadCpsr_armWriteRegister, codeFlags, ← getBit_carry_eq, cmp]

/-- ADD sets the flags of SUB. They are those of the sum when the second operand is 0, or when
sum and difference agree in sign, carry and overflow.
-/
def AddFlagsExact (a b : BitVec 32) : Prop :=
  let x := a.toNat
  let y := b.toNat
  y = 0
  ∨ (y ≤ x ∧ x < y + 2 ^ 31 ∧ 2 ^ 32 ≤ x + y ∧ x + y < 3 * 2 ^ 31 ∧ (x = y ↔ x + y = 2 ^ 32))
  ∨ (x < y ∧ y ≤ x + 2 ^ 31 ∧ 2 ^ 31 ≤ x + y ∧ x + y < 2 ^ 32)

/-- RSB sets Z and N of the opposite difference, which must have the same ones. -/
def RsbFlagsExact (a b : BitVec 32) : Prop :=
  a ≠ 0 ∧ (a = b ∧ a.toNat < 2 ^ 31 ∨ b.toNat = a.toNat + 2 ^ 31)

/-- ADC adds the carry to the second operand first, which must not wrap or change sign. -/
def AdcFlagsExact (b : BitVec 32) (c : Bool) : Prop :=
  c = true → b ≠ 0xffffffff ∧ b ≠ 0x7fffffff

/-- SBC compares with the second operand plus 1 when C is clear and plus 2 when C is set: it
takes the borrow from the complemented carry.
-/
def SbcFlagsExact (a b : BitVec 32) (c : Bool) : Prop :=
  if c then
    a ≠ b ∧ a ≠ b + 1 ∧ a ≠ b + 2 ∧ a ≠ b + 0x80000000 ∧ a ≠ b + 0x80000001
    ∧ b ≠ 0xffffffff
    ∧ (b = 0xfffffffe ∨ b = 0x7ffffffe ∨ b = 0x7fffffff
      ∨ SignKept a.toInt (a.toInt - b.toInt))
  else b = 0xffffffff ∨ b = 0x7fffffff ∨ SignKept a.toInt (a.toInt - b.toInt - 1)

/-- RSC subtracts the number of Rd in place of the first operand. The flags are right when the
two differences lie on the same side of all the boundaries, the carry test of the code
being always false for the number 1 and almost always for 0.
-/
def RscFlagsExact (number : Nat) (a b : BitVec 32) (c : Bool) : Prop :=
  let x := a.toNat
  let y := b.toNat
  let k := (!c).toNat
  if 2 ≤ number then
    (y < 2 ^ 31 ∧ (x = number ∧ number + k ≤ y ∨ x + k < y ∧ number + k < y))
    ∨ (x < 2 ^ 31 ∧ y < x + k ∧ y + 2 < number + k)
    ∨ (x + k + 2 ^ 31 ≤ y ∧ number + k + 2 ^ 31 ≤ y ∧ (c = true → y ≠ 2 ^ 32 - 1))
    ∨ (2 ^ 31 ≤ x ∧ x + k < y ∧ y < number + k + 2 ^ 31)
  else
    (x < 2 ^ 31 ∧ y < x + k ∧ y < number + k)
    ∨ (number + k < y ∧ y < 2 ^ 31 ∧ y + 2 ^ 31 < x + k)
    ∨ (number + k + 2 ^ 31 ≤ y ∧ y < x + k ∧ (number = 0 → y + 2 ≠ 2 ^ 32 + k))
    ∨ (number = 0 ∧ x + k + 2 ^ 31 ≤ y ∧ y + 2 = 2 ^ 32 + k)

/-- The operands and the old carry on which an arithmetic opcode sets the right flags. -/
def FlagsExact (op : Opcode) (rd : BitVec 8) (a b : BitVec 32) (c : Bool) : Prop :=
  match op with
  | SUB | CMP => CmpExact a b
  | ADD => AddFlagsExact a b
  | RSB => RsbFlagsExact a b
  | ADC => AdcFlagsExact b c
  | SBC => SbcFlagsExact a b c
  | RSC => RscFlagsExact rd.toNat a b c
  | _ => True

/-- Flags of a computed word are the architecture's when word, carry and overflow agree, as
numbers, with the exact value.
-/
theorem eq_arithFlags_iff (op : Opcode) (a b : BitVec 32) (c : Bool) (word : BitVec 32)
    (carry overflow : Prop) [Decidable carry] [Decidable overflow]
    : Flags.mk word.msb (word = 0) carry overflow = arithFlags op a b c
      ↔ (2 ^ 31 ≤ word.toNat ↔ 2 ^ 31 ≤ (op.result a b c).toNat)
        ∧ (word.toNat = 0 ↔ (op.result a b c).toNat = 0)
        ∧ (carry
          ↔ if op.isSum then 2 ^ 32 ≤ op.exactValue a.toNat b.toNat c
            else 0 ≤ op.exactValue a.toNat b.toNat c)
        ∧ (overflow ↔ ¬ Fits 32 (op.exactValue a.toInt b.toInt c)) := by
  have zero (z : BitVec 32) : z = 0 ↔ z.toNat = 0 := BitVec.toNat_inj.symm
  simp only [arithFlags, Flags.mk.injEq, decide_eq_decide, BitVec.msb_eq_decide, zero,
    Nat.add_one_sub_one]
  split <;> rw [decide_eq_decide]

@[simp]
theorem toNat_carryIn (c : Bool) : (carryIn c).toNat = c.toNat := by
  cases c <;> rfl

@[simp]
theorem toNat_borrowIn (c : Bool) : (borrowIn c).toNat = (!c).toNat := by
  cases c <;> rfl

/-- The overflow test of the source, as comparisons of numbers. -/
theorem signTest_iff (a b r : BitVec 32)
    : (a.msb = b.msb ∧ a.msb ≠ r.msb)
      ↔ (2 ^ 31 ≤ a.toNat ↔ 2 ^ 31 ≤ b.toNat) ∧ ¬ (2 ^ 31 ≤ a.toNat ↔ 2 ^ 31 ≤ r.toNat) := by
  simp only [BitVec.msb_eq_decide, ne_eq, decide_eq_decide, Nat.add_one_sub_one]

/-- The signed value of a word on either side of the sign boundary. -/
theorem toInt_cases (x : BitVec 32)
    : (x.toNat < 2 ^ 31 ∧ x.toInt = x.toNat)
      ∨ (2 ^ 31 ≤ x.toNat ∧ x.toInt = x.toNat - 2 ^ 32) := by
  rw [BitVec.toInt_eq_toNat_cond]
  split
  · left; omega
  · right; omega

/-- Witness: the operands on either side of the sign boundary, the words on either side of their
modulus.
-/
theorem cmpFlags_eq_arithFlags_add_iff (a b : BitVec 32) (c : Bool)
    : cmpFlags a b = arithFlags ADD a b c ↔ AddFlagsExact a b := by
  have boundA := a.isLt
  have boundB := b.isLt
  rw [cmpFlags, eq_arithFlags_iff, signTest_iff]
  simp only [CarryOut, Fits, AddFlagsExact, result, exactValue, isSum, if_true,
    Bool.toNat_false]
  rcases toInt_cases a with ⟨signA, valueA⟩ | ⟨signA, valueA⟩ <;>
    rcases toInt_cases b with ⟨signB, valueB⟩ | ⟨signB, valueB⟩ <;>
    rw [valueA, valueB] <;>
    rcases toNat_sub_cases a b with ⟨order, difference⟩ | ⟨order, difference⟩ <;>
    rcases toNat_add_cases a b with ⟨carry, sum⟩ | ⟨carry, sum⟩ <;>
    rcases toNat_neg_cases b with ⟨zero, negated⟩ | ⟨zero, negated⟩ <;>
    rw [difference, sum, negated] <;>
    clear difference sum negated valueA valueB <;>
    generalize a.toNat = x, b.toNat = y at * <;>
    omega

theorem cmpFlags_eq_arithFlags_sub_iff (a b : BitVec 32) (c : Bool)
    : cmpFlags a b = arithFlags SUB a b c ↔ CmpExact a b := by
  rw [← cmpFlags_eq_ofDifference_iff]
  have same : Flags.ofDifference a b = arithFlags SUB a b c := by
    rw [Flags.ofDifference, eq_arithFlags_iff]
    simp only [result, exactValue, isSum, NoBorrow, Bool.toNat_false, Bool.false_eq_true,
      if_false, true_and, and_true]
    omega
  rw [same]

theorem rsbFlags_eq_arithFlags_iff (a b : BitVec 32) (c : Bool)
    : rsbFlags a b = arithFlags RSB a b c ↔ RsbFlagsExact a b := by
  have boundA := a.isLt
  have boundB := b.isLt
  have zero : a = 0 ↔ a.toNat = 0 := BitVec.toNat_inj.symm
  have equal : a = b ↔ a.toNat = b.toNat := BitVec.toNat_inj.symm
  rw [rsbFlags, eq_arithFlags_iff, signTest_iff]
  simp only [CarryOut, Fits, RsbFlagsExact, result, exactValue, isSum, Bool.false_eq_true,
    if_false, Bool.toNat_false, ne_eq, zero, equal]
  rcases toInt_cases a with ⟨signA, valueA⟩ | ⟨signA, valueA⟩ <;>
    rcases toInt_cases b with ⟨signB, valueB⟩ | ⟨signB, valueB⟩ <;>
    rw [valueA, valueB] <;>
    rcases toNat_sub_cases a b with ⟨order, difference⟩ | ⟨order, difference⟩ <;>
    rcases toNat_sub_cases b a with ⟨order', difference'⟩ | ⟨order', difference'⟩ <;>
    rcases toNat_neg_cases a with ⟨isZero, negated⟩ | ⟨isZero, negated⟩ <;>
    rw [difference, difference', negated] <;>
    clear difference difference' negated valueA valueB <;>
    generalize a.toNat = x, b.toNat = y at * <;>
    omega

theorem cmnFlags_eq_arithFlags_cmn (a b : BitVec 32) (c : Bool)
    : cmnFlags a b = arithFlags CMN a b c := by
  have boundA := a.isLt
  have boundB := b.isLt
  rw [cmnFlags, eq_arithFlags_iff, signTest_iff]
  simp only [CarryOut, Fits, result, exactValue, isSum, if_true, Bool.toNat_false,
    BitVec.toNat_add, true_and]
  rcases toInt_cases a with ⟨signA, valueA⟩ | ⟨signA, valueA⟩ <;>
    rcases toInt_cases b with ⟨signB, valueB⟩ | ⟨signB, valueB⟩ <;>
    rw [valueA, valueB] <;>
    omega

/-- Sum and result are the same word. -/
theorem cmnFlags_eq_arithFlags_adc_iff (a b : BitVec 32) (c : Bool)
    : cmnFlags a (b + carryIn c) = arithFlags ADC a b c ↔ AdcFlagsExact b c := by
  have boundA := a.isLt
  have boundB := b.isLt
  have last : b = 0xffffffff ↔ b.toNat = 0xffffffff := BitVec.toNat_inj.symm
  have lastPositive : b = 0x7fffffff ↔ b.toNat = 0x7fffffff := BitVec.toNat_inj.symm
  have sum : a + b + carryIn c = a + (b + carryIn c) := BitVec.add_assoc _ _ _
  have small := Bool.toNat_le c
  have isSet : c = true ↔ c.toNat = 1 := by cases c <;> decide
  have first := toNat_add_cases b (carryIn c)
  rw [toNat_carryIn] at first
  rw [cmnFlags, eq_arithFlags_iff, signTest_iff, result, sum]
  simp only [CarryOut, Fits, AdcFlagsExact, exactValue, isSum, if_true, Bool.toNat_false,
    true_and, ne_eq, last, lastPositive, isSet]
  rcases toInt_cases a with ⟨signA, valueA⟩ | ⟨signA, valueA⟩ <;>
    rcases toInt_cases b with ⟨signB, valueB⟩ | ⟨signB, valueB⟩ <;>
    rw [valueA, valueB] <;>
    rcases first with ⟨wraps, first⟩ | ⟨wraps, first⟩ <;>
    rcases toNat_add_cases a (b + carryIn c) with ⟨carries, second⟩ | ⟨carries, second⟩ <;>
    rw [second, first] <;>
    rw [first] at carries <;>
    clear first second valueA valueB isSet last lastPositive sum <;>
    generalize a.toNat = x, b.toNat = y, c.toNat = k at * <;>
    omega

/-- With C clear `arm_cmp` is called with the second operand plus 1, which is right for the
result.
-/
theorem cmpFlags_eq_arithFlags_sbc_clear_iff (a b : BitVec 32)
    : cmpFlags a (b - ~~~carryIn false) = arithFlags SBC a b false ↔ SbcFlagsExact a b false := by
  have boundA := a.isLt
  have boundB := b.isLt
  have last : b = 0xffffffff ↔ b.toNat = 0xffffffff := BitVec.toNat_inj.symm
  have lastPositive : b = 0x7fffffff ↔ b.toNat = 0x7fffffff := BitVec.toNat_inj.symm
  have operand : b - ~~~carryIn false = b + 1 := by
    rw [carryIn, if_neg Bool.false_ne_true]
    bv_omega
  have difference : a - b - borrowIn false = a - (b + 1) := by
    rw [borrowIn, if_neg Bool.false_ne_true]
    bv_omega
  have one : (1 : BitVec 32).toNat = 1 := rfl
  rw [operand, cmpFlags, eq_arithFlags_iff, signTest_iff, result, difference]
  simp only [CarryOut, Fits, SbcFlagsExact, SignKept, exactValue, isSum, true_and,
    Bool.false_eq_true, if_false, Bool.toNat_false, Bool.not_false, Bool.toNat_true, last,
    lastPositive]
  rcases toInt_cases a with ⟨signA, valueA⟩ | ⟨signA, valueA⟩ <;>
    rcases toInt_cases b with ⟨signB, valueB⟩ | ⟨signB, valueB⟩ <;>
    rw [valueA, valueB] <;>
    rcases toNat_add_cases b 1 with ⟨wraps, first⟩ | ⟨wraps, first⟩ <;>
    rcases toNat_sub_cases a (b + 1) with ⟨order, second⟩ | ⟨order, second⟩ <;>
    rcases toNat_neg_cases (b + 1) with ⟨isZero, negated⟩ | ⟨isZero, negated⟩ <;>
    rw [negated, second, first] <;>
    rw [first] at order isZero <;>
    rw [one] at * <;>
    clear first second negated valueA valueB last lastPositive <;>
    generalize a.toNat = x, b.toNat = y at * <;>
    omega

/-- With C set it is called with the second operand plus 2, although nothing is borrowed. -/
theorem cmpFlags_eq_arithFlags_sbc_set_iff (a b : BitVec 32)
    : cmpFlags a (b - ~~~carryIn true) = arithFlags SBC a b true ↔ SbcFlagsExact a b true := by
  have boundA := a.isLt
  have boundB := b.isLt
  rw [cmpFlags, eq_arithFlags_iff, signTest_iff]
  have moved : (b - ~~~carryIn true).toNat = (b.toNat + 2) % 2 ^ 32 := by
    rw [carryIn, if_pos rfl]
    bv_omega
  have apart (k : BitVec 32) : a = b + k ↔ (a - b).toNat = k.toNat := by bv_omega
  have same : a = b ↔ (a - b).toNat = 0 := by bv_omega
  have difference : (a - b).toNat = (2 ^ 32 - b.toNat + a.toNat) % 2 ^ 32 :=
    BitVec.toNat_sub a b
  simp only [CarryOut, Fits, SbcFlagsExact, SignKept, result, exactValue, isSum, ne_eq,
    if_true, Bool.false_eq_true, if_false, Bool.toNat_false, Bool.not_true, apart, same,
    BitVec.toNat_sub _ (b - _), BitVec.toNat_neg, moved, borrowIn, BitVec.sub_zero,
    ← BitVec.toNat_inj, BitVec.ofNat_eq_ofNat, BitVec.toNat_ofNat, Nat.reducePow,
    Nat.reduceMod]
  generalize (a - b).toNat = d at *
  generalize eq : (4294967296 - (b.toNat + 2) % 4294967296 + a.toNat) % 4294967296 = e
  have shifted : d < 2 ∧ e = d + 4294967294 ∨ 2 ≤ d ∧ e = d - 2 := by omega
  -- the sign and the carry fix where the two differences lie, the overflow what is left
  have sign : (2147483648 ≤ e ↔ 2147483648 ≤ d)
      ↔ d ≠ 0 ∧ d ≠ 1 ∧ d ≠ 2147483648 ∧ d ≠ 2147483649 := by omega
  have zero : (e = 0 ↔ d = 0) ↔ d ≠ 0 ∧ d ≠ 2 := by omega
  have carry (notZero : d ≠ 0) (notOne : d ≠ 1)
      : (4294967296 ≤ a.toNat + (4294967296 - (b.toNat + 2) % 4294967296) % 4294967296 + 0
          ↔ 0 ≤ (a.toNat : Int) - b.toNat - (0 : Nat))
        ↔ b.toNat ≠ 4294967295 := by
    clear sign zero shifted eq
    omega
  have overflow (sameSign : 2147483648 ≤ e ↔ 2147483648 ≤ d)
      (notLast : b.toNat ≠ 4294967295)
      : ((2147483648 ≤ a.toNat ↔ 2147483648 ≤ (b.toNat + 2) % 4294967296)
            ∧ ¬ (2147483648 ≤ a.toNat ↔ 2147483648 ≤ e)
          ↔ ¬ (-2 ^ (32 - 1) ≤ a.toInt - b.toInt - (0 : Nat)
              ∧ a.toInt - b.toInt - (0 : Nat) < 2 ^ (32 - 1)))
        ↔ b.toNat = 4294967294 ∨ b.toNat = 2147483646 ∨ b.toNat = 2147483647
          ∨ (0 ≤ a.toInt → 0 ≤ a.toInt - b.toInt ∧ a.toInt - b.toInt < 2 ^ 31)
            ∧ (a.toInt < 0 → -2 ^ 31 ≤ a.toInt - b.toInt ∧ a.toInt - b.toInt < 0) := by
    rw [sameSign]
    clear sign zero carry sameSign shifted eq
    rcases toInt_cases a with ⟨signA, valueA⟩ | ⟨signA, valueA⟩ <;>
      rcases toInt_cases b with ⟨signB, valueB⟩ | ⟨signB, valueB⟩ <;>
      rw [valueA, valueB] <;>
      omega
  constructor
  · rintro ⟨sameSign, sameZero, sameCarry, sameOverflow⟩
    obtain ⟨notZero, notOne, notHalf, notNext⟩ := sign.mp sameSign
    have notLast := (carry notZero notOne).mp sameCarry
    exact ⟨notZero, notOne, (zero.mp sameZero).2, notHalf, notNext, notLast,
      (overflow sameSign notLast).mp sameOverflow⟩
  · rintro ⟨notZero, notOne, notTwo, notHalf, notNext, notLast, kept⟩
    have sameSign := sign.mpr ⟨notZero, notOne, notHalf, notNext⟩
    exact ⟨sameSign, zero.mpr ⟨notZero, notTwo⟩, (carry notZero notOne).mpr notLast,
      (overflow sameSign notLast).mpr kept⟩

theorem cmpFlags_eq_arithFlags_sbc_iff (a b : BitVec 32) (c : Bool)
    : cmpFlags a (b - ~~~carryIn c) = arithFlags SBC a b c ↔ SbcFlagsExact a b c := by
  cases c with
  | false => exact cmpFlags_eq_arithFlags_sbc_clear_iff a b
  | true => exact cmpFlags_eq_arithFlags_sbc_set_iff a b

/-- A difference with borrow is the exact difference, or one modulus above it. -/
theorem toNat_sub_borrowIn_cases (x y : BitVec 32) (c : Bool)
    : (y.toNat + (!c).toNat ≤ x.toNat
        ∧ (x - y - borrowIn c).toNat = x.toNat - (y.toNat + (!c).toNat))
      ∨ (x.toNat < y.toNat + (!c).toNat
        ∧ (x - y - borrowIn c).toNat = 2 ^ 32 + x.toNat - (y.toNat + (!c).toNat)) := by
  have bound := x.isLt
  have small := Bool.toNat_le (!c)
  rcases toNat_sub_cases x y with ⟨order, first⟩ | ⟨order, first⟩ <;>
    rcases toNat_sub_cases (x - y) (borrowIn c) with ⟨order', second⟩ | ⟨order', second⟩ <;>
    rw [toNat_borrowIn, first] at order' <;>
    rw [second, toNat_borrowIn, first] <;>
    omega

/-- When the carry test of `arm_rsc` holds, for a register number. -/
theorem rscCarry_iff (number b : BitVec 32) (isRegister : number.toNat < 16) (c : Bool)
    : 0xffffffff - b - carryIn c < ~~~number + 2
      ↔ if 2 ≤ number.toNat then
          number.toNat + (!c).toNat < b.toNat + 3 ∧ (c = true → b.toNat ≠ 2 ^ 32 - 1)
        else number.toNat = 0 ∧ b.toNat + 2 = 2 ^ 32 + (!c).toNat := by
  rw [BitVec.lt_def, BitVec.toNat_sub, BitVec.toNat_sub, BitVec.toNat_add, BitVec.toNat_not,
    toNat_carryIn]
  simp only [BitVec.ofNat_eq_ofNat, BitVec.toNat_ofNat, Nat.reducePow, Nat.reduceMod]
  cases c
  · simp only [Bool.toNat_false, Bool.not_false, Bool.toNat_true, Bool.false_eq_true,
      false_implies, and_true]
    split <;> omega
  · simp only [Bool.toNat_true, Bool.not_true, Bool.toNat_false, true_implies]
    split <;> omega

theorem rscFlags_eq_arithFlags_iff (rd : BitVec 8) (isRegister : rd.toNat < 16)
    (a b : BitVec 32) (c : Bool)
    : rscFlags (rd.setWidth 32) b c = arithFlags RSC a b c
      ↔ RscFlagsExact rd.toNat a b c := by
  have boundA := a.isLt
  have boundB := b.isLt
  have number : (rd.setWidth 32).toNat = rd.toNat := by
    rw [BitVec.toNat_setWidth]
    omega
  have flags : rscFlags (rd.setWidth 32) b c
      = Flags.mk (b - rd.setWidth 32 - borrowIn c).msb (b - rd.setWidth 32 - borrowIn c = 0)
          (0xffffffff - b - carryIn c < ~~~rd.setWidth 32 + 2) False :=
    rfl
  have exact : 0 ≤ (b.toNat : Int) - a.toNat - (!c).toNat
      ↔ a.toNat + (!c).toNat ≤ b.toNat := by omega
  have isSet : c = true ↔ (!c).toNat = 0 := by cases c <;> decide
  have small := Bool.toNat_le (!c)
  have computed := toNat_sub_borrowIn_cases b (rd.setWidth 32) c
  rw [flags, eq_arithFlags_iff, result, rscCarry_iff _ b (by rwa [number]), number]
  rw [number] at computed
  simp only [exactValue, Fits, RscFlagsExact, isSum, Bool.false_eq_true, if_false, exact, isSet,
    false_iff, not_not]
  -- only numbers are left: the register number, the borrow and the operands on either side
  -- of the sign boundary, the differences on either side of their modulus
  rcases toInt_cases a with ⟨signA, valueA⟩ | ⟨signA, valueA⟩ <;>
    rcases toInt_cases b with ⟨signB, valueB⟩ | ⟨signB, valueB⟩ <;>
    rw [valueA, valueB] <;>
    rcases computed with ⟨order, difference⟩ | ⟨order, difference⟩ <;>
    rcases toNat_sub_borrowIn_cases b a c with ⟨order', difference'⟩ | ⟨order', difference'⟩ <;>
    rw [difference, difference'] <;>
    clear difference difference' valueA valueB flags exact isSet number <;>
    generalize rd.toNat = r, (!c).toNat = k, a.toNat = x, b.toNat = y at * <;>
    split <;>
    omega

/-- The code's flags are the architecture's on exactly the operands of `FlagsExact`.
Witness: one comparison for each arithmetic opcode.
-/
theorem codeFlags_eq_arithFlags_iff {op : Opcode} (arithmetic : op.isArithmetic)
    (rd : BitVec 8) (isRegister : rd.toNat < 16) (a b : BitVec 32) (c : Bool)
    : codeFlags op rd a b c = arithFlags op a b c ↔ FlagsExact op rd a b c := by
  cases op <;> try contradiction
  case SUB => exact cmpFlags_eq_arithFlags_sub_iff a b c
  case RSB => exact rsbFlags_eq_arithFlags_iff a b c
  case ADD => exact cmpFlags_eq_arithFlags_add_iff a b c
  case ADC => exact cmnFlags_eq_arithFlags_adc_iff a b c
  case SBC => exact cmpFlags_eq_arithFlags_sbc_iff a b c
  case RSC => exact rscFlags_eq_arithFlags_iff rd isRegister a b c
  case CMP => exact cmpFlags_eq_arithFlags_sub_iff a b c
  case CMN => exact iff_true_intro (cmnFlags_eq_arithFlags_cmn a b c)

/-- An arithmetic instruction that sets flags leaves the architecture's flags, and every other
CPSR bit, exactly on the operands of `FlagsExact`. Witness: the CPSR it leaves holds the
code's flags, and a CPSR determines its flags.
-/
theorem armDataProcessingShift_arithFlags_iff (host : Host) (p : ArmCore) (ins a b : BitVec 32)
    (passes : conditionPassed (armReadCpsr p) ins)
    (operand : decodeOperand host p ins = (0, a, b))
    (arithmetic : (decode ins).isArithmetic)
    (sets : (decode ins).writesResult → ins.getLsbD 20)
    : armReadCpsr (armDataProcessingShift host p ins).2
        = ((decode ins).arithFlags a b (carryFlag p)).put (armReadCpsr p)
      ↔ FlagsExact (decode ins) (dpRd ins) a b (carryFlag p) := by
  have setsBit (writes : (decode ins).writesResult) : (getBit ins 20).setWidth 8 ≠ 0 := by
    intro clear
    rw [(getBit_setWidth_eq_zero_iff ins 20).mp clear] at sets
    exact Bool.false_ne_true (sets writes)
  rw [armDataProcessingShift_eq passes operand,
    armReadCpsr_executeOpcode p _ a b _ arithmetic setsBit, Flags.put_inj,
    codeFlags_eq_arithFlags_iff arithmetic _ (dpRd_lt ins)]

/-- CMN r2, r3 with the largest word and 1 sets Z and C. -/
theorem cmn_carriesOut
    : armReadCpsr (armDataProcessingShift (.plain .little) (twoOperands 0xffffffff 1)
          0xE1720003).2
        = ((decode 0xE1720003).arithFlags 0xffffffff 1 false).put 0x1d3 :=
  (armDataProcessingShift_arithFlags_iff (.plain .little) (twoOperands 0xffffffff 1) 0xE1720003
    0xffffffff 1 (by decide +kernel) (by decide +kernel) rfl (by decide +kernel)).mpr trivial

/-- ADDS r1, r2, r3 with 1 and 1 sets the flags of 1 - 1. -/
theorem adds_zeroFlag
    : conditionPassed (armReadCpsr (twoOperands 1 1)) 0xE0921003
      ∧ decodeOperand (.plain .little) (twoOperands 1 1) 0xE0921003 = (0, 1, 1)
      ∧ (decode 0xE0921003).isArithmetic
      ∧ ((decode 0xE0921003).writesResult → (0xE0921003 : BitVec 32).getLsbD 20)
      ∧ armReadCpsr (armDataProcessingShift (.plain .little) (twoOperands 1 1) 0xE0921003).2
        ≠ ((decode 0xE0921003).arithFlags 1 1 (carryFlag (twoOperands 1 1))).put
            (armReadCpsr (twoOperands 1 1)) := by
  refine ⟨by decide +kernel, by decide +kernel, rfl, by decide +kernel, by decide +kernel⟩

end Armator
