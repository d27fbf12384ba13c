import Armator.Architecture.Flags
import Armator.Simulator.DataProcessing

/-! What the flag helpers of the data-processing opcodes leave in the CPSR.
Each helper is one CPSR write; the flags it computes are named here, and compared with the
architecture's in the modules that follow.
-/

namespace Armator

open Bits ExactArith

/-- A `uint8_t` that holds the carry bit of a CPSR, as `bit_c` does. -/
def HoldsCarry (c : BitVec 8) (cpsr : BitVec 32) : Prop :=
  c = 0 ↔ cpsr.getLsbD CpsrBit.C = false

theorem holdsCarry_bitC (cpsr : BitVec 32)
    : HoldsCarry ((getBit cpsr 29).setWidth 8) cpsr :=
  getBit_setWidth_eq_zero_iff cpsr 29

/-- The source's pair of masks under a test is one bit write. -/
theorem ite_writeBit (p : ArmCore) (i : Nat) (test : Prop) [Decidable test]
    : (if test then armWriteCpsr p (armReadCpsr p ||| (1#32 <<< i))
        else armWriteCpsr p (armReadCpsr p &&& ~~~(1#32 <<< i)))
      = armWriteCpsr p (putBit (armReadCpsr p) i (decide test)) := by
  by_cases h : test
  · simp only [h, if_true, decide_true, putBit]
  · simp only [h, if_false, decide_false, putBit, Bool.false_eq_true]

/-- `updateZN` sets Z and N from the result. Witness: its two masks are bit writes. -/
theorem updateZN_eq (p : ArmCore) (result : BitVec 32)
    : updateZN p result
      = armWriteCpsr p (putBit (putBit (armReadCpsr p) 30 (result = 0)) 31 result.msb) := by
  have sign : decide (getBit result 31 = 1) = result.msb := by
    rw [BitVec.ofNat_eq_ofNat, BitVec.msb_eq_getLsbD_last, Bool.eq_iff_iff, decide_eq_true_eq,
      getBit_eq_one_iff]
  unfold updateZN
  rw [ite_writeBit, ite_writeBit, sign, armReadCpsr_armWriteCpsr, armWriteCpsr_armWriteCpsr]

theorem updateV_eq (p : ArmCore) (overflow : Bool)
    : updateV p overflow = armWriteCpsr p (putBit (armReadCpsr p) 28 overflow) := by
  cases overflow <;> rfl

/-- With the old carry at hand, the two conditional updates make the carry bit the outcome
of the comparison. Witness: when the bit already is that outcome nothing is written.
-/
theorem updateC_eq (p : ArmCore) (room addend : BitVec 32) {c : BitVec 8}
    (holds : HoldsCarry c (armReadCpsr p))
    : updateC p room addend c
      = armWriteCpsr p (putBit (armReadCpsr p) 29 (decide (room < addend))) := by
  have unchanged {b : Bool} (same : (armReadCpsr p).getLsbD 29 = b)
      : armWriteCpsr p (putBit (armReadCpsr p) 29 b) = p := by
    rw [(putBit_eq_self_iff _ _ _ (by decide)).mpr same, armWriteCpsr_armReadCpsr]
  unfold updateC
  by_cases carries : room < addend <;> by_cases clear : c = 0
  · have keep : ¬ room ≥ addend := BitVec.not_le.mpr carries
    simp only [carries, clear, keep, setBit_eq, and_self, if_true, false_and, if_false,
      decide_true]
  · have keep : ¬ room ≥ addend := BitVec.not_le.mpr carries
    have isSet : (armReadCpsr p).getLsbD 29 = true :=
      Bool.not_eq_false _ ▸ mt holds.mpr clear
    simp only [clear, keep, and_false, if_false, false_and, carries, decide_true,
      unchanged isSet]
  · simp only [carries, clear, ne_eq, not_true_eq_false, and_false, false_and, if_false,
      decide_false, unchanged (holds.mp clear)]
  · have drop : room ≥ addend := BitVec.not_lt.mp carries
    simp only [carries, clear, drop, clrBit_eq, ne_eq, not_false_eq_true, and_self, if_true,
      if_false, decide_false]

/-- `q` is `p` with other condition flags. -/
def FlagsOnly (p q : ArmCore) : Prop :=
  ∃ flags : Flags, q = armWriteCpsr p (flags.put (armReadCpsr p))

/-- A CPSR with the old bits below the flags is the old one with other flags. -/
theorem FlagsOnly.of_low (p : ArmCore) {psr : BitVec 32}
    (low : ∀ j < 28, psr.getLsbD j = (armReadCpsr p).getLsbD j)
    : FlagsOnly p (armWriteCpsr p psr) := by
  refine ⟨.read psr, congrArg (armWriteCpsr p) ?_⟩
  exact (Flags.put_read_of_low low).symm

theorem FlagsOnly.refl (p : ArmCore) : FlagsOnly p p := by
  have same := FlagsOnly.of_low p (fun j _ => rfl : ∀ j < 28, (armReadCpsr p).getLsbD j = _)
  rwa [armWriteCpsr_armReadCpsr] at same

/-- Flag changes compose. Witness: the later flags win. -/
theorem FlagsOnly.trans {p q r : ArmCore} (first : FlagsOnly p q) (second : FlagsOnly q r)
    : FlagsOnly p r := by
  obtain ⟨flags, rfl⟩ := first
  obtain ⟨flags', rfl⟩ := second
  exact ⟨flags', by rw [armReadCpsr_armWriteCpsr, Flags.put_put, armWriteCpsr_armWriteCpsr]⟩

/-- A write of a bit from 28 on changes a flag. -/
theorem FlagsOnly.putBit (p : ArmCore) {i : Nat} (b : Bool) (high : 28 ≤ i)
    : FlagsOnly p (armWriteCpsr p (putBit (armReadCpsr p) i b)) := by
  refine .of_low p fun j low => ?_
  rw [getLsbD_putBit, if_neg]
  omega

theorem FlagsOnly.ite {p q : ArmCore} {test : Prop} [Decidable test] (h : FlagsOnly p q)
    : FlagsOnly p (if test then q else p) := by
  split
  · exact h
  · exact .refl p

theorem FlagsOnly.updateZN (p : ArmCore) (result : BitVec 32) : FlagsOnly p (updateZN p result) :=
  updateZN_eq p result ▸ .of_low p fun j low => by
    rw [getLsbD_putBit, if_neg (by omega), getLsbD_putBit, if_neg (by omega)]

theorem FlagsOnly.updateV (p : ArmCore) (overflow : Bool) : FlagsOnly p (updateV p overflow) :=
  updateV_eq p overflow ▸ .putBit p _ (by decide)

theorem FlagsOnly.updateC (p : ArmCore) (room addend : BitVec 32) (c : BitVec 8)
    : FlagsOnly p (updateC p room addend c) :=
  (FlagsOnly.ite (.putBit p true (by decide))).trans (.ite (.putBit _ false (by decide)))

theorem FlagsOnly.armTst (p : ArmCore) (a b : BitVec 32) : FlagsOnly p (armTst p a b) :=
  (FlagsOnly.updateZN p _).trans (.putBit _ false (by decide))

theorem FlagsOnly.armTeq (p : ArmCore) (a b : BitVec 32) : FlagsOnly p (armTeq p a b) :=
  (FlagsOnly.updateZN p _).trans (.putBit _ false (by decide))

theorem FlagsOnly.armCmp (p : ArmCore) (a b : BitVec 32) (c v : BitVec 8)
    : FlagsOnly p (armCmp p a b c v) :=
  ((FlagsOnly.updateZN p _).trans (.updateV _ _)).trans (.updateC _ _ _ _)

theorem FlagsOnly.armCmn (p : ArmCore) (a b : BitVec 32) (c : BitVec 8)
    : FlagsOnly p (armCmn p a b c) :=
  ((FlagsOnly.updateZN p _).trans (.updateV _ _)).trans (.updateC _ _ _ _)

/-- A helper that sets Z and N, then V, then C has written these flags. -/
theorem putBits_eq_put (cpsr : BitVec 32) (flags : Flags)
    : putBit (putBit (putBit (putBit cpsr 30 flags.z) 31 flags.n) 28 flags.v) 29 flags.c
      = flags.put cpsr := by
  apply BitVec.eq_of_getLsbD_eq
  intro j hj
  simp only [Flags.getLsbD_put, getLsbD_putBit]
  grind

/-- A CPSR after `updateZN` and a write of C. -/
theorem putCarry_eq_put (cpsr : BitVec 32) (n z c : Bool)
    : putBit (putBit (putBit cpsr 30 z) 31 n) 29 c
      = Flags.put { n, z, c, v := cpsr.getLsbD CpsrBit.V } cpsr := by
  rw [← putBits_eq_put]
  congr 1
  refine ((putBit_eq_self_iff _ 28 _ (by decide)).mpr ?_).symm
  rw [getLsbD_putBit, if_neg (by decide), getLsbD_putBit, if_neg (by decide)]

/-- The flags `arm_cmp` computes: its carry adds the two's complement of the second word,
its overflow test is the one for sums.
-/
def cmpFlags (a b : BitVec 32) : Flags where
  n := (a - b).msb
  z := a - b = 0
  c := CarryOut a (-b) false
  v := a.msb = b.msb ∧ a.msb ≠ (a - b).msb

/-- The flags `arm_cmn` computes. -/
def cmnFlags (a b : BitVec 32) : Flags where
  n := (a + b).msb
  z := a + b = 0
  c := CarryOut a b false
  v := a.msb = b.msb ∧ a.msb ≠ (a + b).msb

/-- The sign tests of the source on words are tests of sign bits. -/
theorem signTest_eq (a b result : BitVec 32)
    : decide (getBit a 31 = getBit b 31 ∧ getBit a 31 ≠ getBit result 31)
      = decide (a.msb = b.msb ∧ a.msb ≠ result.msb) := by
  simp only [getBit_inj, ne_eq, BitVec.msb_eq_getLsbD_last, Nat.reduceSub]

theorem armCmp_eq (p : ArmCore) (a b : BitVec 32) {c : BitVec 8} (v : BitVec 8)
    (holds : HoldsCarry c (armReadCpsr p))
    : armCmp p a b c v = armWriteCpsr p ((cmpFlags a b).put (armReadCpsr p)) := by
  have negated : ~~~b + 1 = -b := (BitVec.neg_eq_not_add b).symm
  have carry : decide (0xffffffff - a < -b) = (cmpFlags a b).c :=
    decide_eq_decide.mpr (allOnes_sub_lt_iff a (-b))
  simp only [armCmp, negated]
  rw [updateZN_eq, updateV_eq, updateC_eq, carry, signTest_eq]
  · simp only [armReadCpsr_armWriteCpsr, armWriteCpsr_armWriteCpsr, ← putBits_eq_put]
    rfl
  · simpa [HoldsCarry, getLsbD_putBit] using holds

theorem armCmn_eq (p : ArmCore) (a b : BitVec 32) {c : BitVec 8}
    (holds : HoldsCarry c (armReadCpsr p))
    : armCmn p a b c = armWriteCpsr p ((cmnFlags a b).put (armReadCpsr p)) := by
  have carry : decide (0xffffffff - a < b) = (cmnFlags a b).c :=
    decide_eq_decide.mpr (allOnes_sub_lt_iff a b)
  simp only [armCmn]
  rw [updateZN_eq, updateV_eq, updateC_eq, carry, signTest_eq]
  · simp only [armReadCpsr_armWriteCpsr, armWriteCpsr_armWriteCpsr, ← putBits_eq_put]
    rfl
  · simpa [HoldsCarry, getLsbD_putBit] using holds

end Armator
