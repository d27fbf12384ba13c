import Armator.Correctness.FlagUpdates

/-! A comparison followed by a condition: when `arm_cmp` leaves the flags of the difference. -/

namespace Armator

open ExactArith

/-- An exact signed difference `d` fits in 32 bits and has the sign of its first operand. -/
def SignKept (first d : Int) : Prop :=
  (0 ≤ first → 0 ≤ d ∧ d < 2 ^ 31) ∧ (first < 0 → -2 ^ 31 ≤ d ∧ d < 0)

/-- The operands on which `arm_cmp` computes the carry and overflow of `a - b`. -/
def CmpExact (a b : BitVec 32) : Prop :=
  b ≠ 0 ∧ SignKept a.toInt (a.toInt - b.toInt)

instance (a b : BitVec 32) : Decidable (CmpExact a b) := by
  unfold CmpExact SignKept
  infer_instance

/-- Adding the two's complement carries when the difference does not borrow, except that
subtracting 0 has no complement to carry.
-/
theorem carryOut_neg_iff (a b : BitVec 32)
    : (CarryOut a (-b) false ↔ NoBorrow a b false) ↔ b ≠ 0 := by
  have bound := b.isLt
  have bound' := a.isLt
  have negated : (-b).toNat = (2 ^ 32 - b.toNat) % 2 ^ 32 := BitVec.toNat_neg b
  have zero : b = 0 ↔ b.toNat = 0 := by rw [← BitVec.toNat_inj]; rfl
  simp only [CarryOut, NoBorrow, Bool.toNat_false, negated, ne_eq, zero]
  omega

/-- The sign bit of a difference is the first operand's when the exact difference keeps the
sign. Witness: the sign bit of the reduced exact difference.
-/
theorem msb_sub_eq_iff (a b : BitVec 32)
    : (a - b).msb = a.msb ↔ SignKept a.toInt (a.toInt - b.toInt) := by
  obtain ⟨al, au, as⟩ := toInt_range (w := 32) (by decide) a
  obtain ⟨bl, bu, _⟩ := toInt_range (w := 32) (by decide) b
  have sign := msb_ofInt (w := 32) (by decide) (i := a.toInt - b.toInt) (by omega) (by omega)
  rw [sub_eq_ofInt, bool_eq_iff sign as, SignKept]
  omega

/-- The overflow test for sums gives the overflow of the difference exactly when the sign
does not change.
-/
theorem sumTest_eq_overflow_iff (a b : BitVec 32)
    : ((a.msb = b.msb ∧ a.msb ≠ (a - b).msb) ↔ ¬ Fits 32 (a.toInt - b.toInt))
      ↔ (a - b).msb = a.msb := by
  have rule := fits_sub_iff (w := 32) (by decide) a b false
  simp only [Bool.toNat_false, BitVec.sub_zero, Int.natCast_zero, Int.sub_zero] at rule
  rw [rule]
  cases a.msb <;> cases b.msb <;> cases (a - b).msb <;> decide

/-- `arm_cmp` computes the flags of the exact difference on exactly these operands.
Witness: N and Z always agree, C unless `b` is 0, V when the sign is kept.
-/
theorem cmpFlags_eq_ofDifference_iff (a b : BitVec 32)
    : cmpFlags a b = Flags.ofDifference a b ↔ CmpExact a b := by
  simp only [cmpFlags, Flags.ofDifference, Flags.mk.injEq, true_and, decide_eq_decide]
  rw [carryOut_neg_iff, sumTest_eq_overflow_iff, msb_sub_eq_iff, CmpExact]

/-- After `arm_cmp`, called with the C and V bits of the CPSR as
`arm_data_processing_shift` does, every condition that stands for a comparison passes
exactly when that comparison of the operands holds.
-/
def CmpDecidesConditions (p : ArmCore) (a b : BitVec 32) : Prop :=
  let bitC := (getBit (armReadCpsr p) 29).setWidth 8
  let bitV := (getBit (armReadCpsr p) 28).setWidth 8
  let cpsr := armReadCpsr (armCmp p a b bitC bitV)
  ∀ (ins : BitVec 32) (cond : Cond) (relation : BitVec 32 → BitVec 32 → Bool),
    armGetCond ins = some cond
    → cond.relation = some relation
    → conditionPassed cpsr ins = relation a b

/-- The CPSR that `arm_cmp` leaves. -/
theorem armReadCpsr_armCmp (p : ArmCore) (a b : BitVec 32)
    : armReadCpsr (armCmp p a b ((getBit (armReadCpsr p) 29).setWidth 8)
        ((getBit (armReadCpsr p) 28).setWidth 8))
      = (cmpFlags a b).put (armReadCpsr p) := by
  rw [armCmp_eq p a b _ (holdsCarry_bitC _), armReadCpsr_armWriteCpsr]

/-- Comparison followed by a condition is integer comparison exactly when the second operand
is not 0 and the exact signed difference fits in a word and keeps the first one's sign.
Witness: CS fixes the carry and GE the overflow; the exact flags decide all ten conditions.
-/
theorem armCmp_decides_iff (p : ArmCore) (a b : BitVec 32)
    : CmpDecidesConditions p a b ↔ CmpExact a b := by
  rw [CmpDecidesConditions, ← cmpFlags_eq_ofDifference_iff]
  simp only [armReadCpsr_armCmp]
  constructor
  · intro decides
    have carry := decides 0x20000000 .CS_HS _ rfl rfl
    have signed := decides 0xA0000000 .GE _ rfl rfl
    rw [conditionPassed_eq, show armGetCond 0x20000000 = some .CS_HS from rfl] at carry
    rw [conditionPassed_eq, show armGetCond 0xA0000000 = some .GE from rfl] at signed
    simp only [Flags.getLsbD_put_N, Flags.getLsbD_put_C, Flags.getLsbD_put_V] at carry signed
    have agree : ∀ n v v' : Bool, (n = v ↔ n = v') → v = v' := by decide
    have overflow : (cmpFlags a b).v = decide (¬ Fits 32 (a.toInt - b.toInt)) := by
      rw [Bool.eq_iff_iff, beq_iff_eq, decide_eq_true_eq, ← msb_sub_eq_overflow_iff] at signed
      exact agree _ _ _ signed
    have noBorrow : (cmpFlags a b).c = decide (NoBorrow a b false) := by
      rw [carry]
      rfl
    simp only [cmpFlags, Flags.ofDifference, Flags.mk.injEq, true_and] at overflow noBorrow ⊢
    exact ⟨noBorrow, overflow⟩
  · intro exactFlags ins cond relation field compares
    rw [exactFlags]
    exact conditionPassed_ofDifference a b _ ins field compares

/-- Comparing 0 with 0 clears the carry, so "unsigned higher or same" fails. -/
theorem armCmp_zero_zero
    : ¬ CmpDecidesConditions (armCreate (memoryCreate 0 0 fun _ => 0)) 0 0 := by
  intro decides
  have carry := decides 0x20000000 .CS_HS _ rfl rfl
  revert carry
  decide +kernel

end Armator
