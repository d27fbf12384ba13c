import Armator.Lib.ExactArith
import Armator.Simulator.Util

/-! The condition flags as the architecture defines them, and what the conditions say about
two compared words.
-/

namespace Armator

open ExactArith

/-- The four condition flags. -/
structure Flags where
  n : Bool
  z : Bool
  c : Bool
  v : Bool
deriving DecidableEq, Repr

namespace Flags

/-- The PSR word with these flags and every other bit kept. -/
def put (flags : Flags) (psr : BitVec 32) : BitVec 32 :=
  Bits.putBit (Bits.putBit (Bits.putBit (Bits.putBit psr CpsrBit.N flags.n) CpsrBit.Z flags.z)
    CpsrBit.C flags.c) CpsrBit.V flags.v

/-- Bits 31 to 28 are the flags, the rest is the old word. Witness: four bit writes. -/
theorem getLsbD_put (flags : Flags) (psr : BitVec 32) (j : Nat)
    : (flags.put psr).getLsbD j
      = if j = CpsrBit.V then flags.v
        else if j = CpsrBit.C then flags.c
        else if j = CpsrBit.Z then flags.z
        else if j = CpsrBit.N then flags.n
        else psr.getLsbD j := by
  simp only [put, Bits.getLsbD_putBit]
  grind

@[simp]
theorem getLsbD_put_N (flags : Flags) (psr : BitVec 32)
    : (flags.put psr).getLsbD CpsrBit.N = flags.n :=
  getLsbD_put flags psr CpsrBit.N

@[simp]
theorem getLsbD_put_Z (flags : Flags) (psr : BitVec 32)
    : (flags.put psr).getLsbD CpsrBit.Z = flags.z :=
  getLsbD_put flags psr CpsrBit.Z

@[simp]
theorem getLsbD_put_C (flags : Flags) (psr : BitVec 32)
    : (flags.put psr).getLsbD CpsrBit.C = flags.c :=
  getLsbD_put flags psr CpsrBit.C

@[simp]
theorem getLsbD_put_V (flags : Flags) (psr : BitVec 32)
    : (flags.put psr).getLsbD CpsrBit.V = flags.v :=
  getLsbD_put flags psr CpsrBit.V

/-- The flags can be read back from the word, so they determine it and it them. -/
theorem put_inj (first second : Flags) (psr : BitVec 32)
    : first.put psr = second.put psr ↔ first = second := by
  constructor
  · intro same
    have bits := fun j => congrArg (fun word => word.getLsbD j) same
    have n := bits CpsrBit.N
    have z := bits CpsrBit.Z
    have c := bits CpsrBit.C
    have v := bits CpsrBit.V
    simp only [getLsbD_put_N, getLsbD_put_Z, getLsbD_put_C, getLsbD_put_V] at n z c v
    cases first
    cases second
    simp_all
  · rintro rfl
    rfl

/-- The last flags written win. -/
theorem put_put (first second : Flags) (psr : BitVec 32)
    : second.put (first.put psr) = second.put psr := by
  apply BitVec.eq_of_getLsbD_eq
  intro j hj
  simp only [getLsbD_put]
  grind

/-- The flags of a PSR word. -/
def read (psr : BitVec 32) : Flags where
  n := psr.getLsbD CpsrBit.N
  z := psr.getLsbD CpsrBit.Z
  c := psr.getLsbD CpsrBit.C
  v := psr.getLsbD CpsrBit.V

/-- A word is its flags over any word with its other bits. -/
theorem put_read_of_low {psr old : BitVec 32} (low : ∀ j < 28, psr.getLsbD j = old.getLsbD j)
    : (read psr).put old = psr := by
  apply BitVec.eq_of_getLsbD_eq
  intro j hj
  rw [getLsbD_put]
  split_ifs with isV isC isZ isN
  · rw [isV]; rfl
  · rw [isC]; rfl
  · rw [isZ]; rfl
  · rw [isN]; rfl
  · have below : j < 28 := by
      simp only [CpsrBit.V, CpsrBit.C, CpsrBit.Z, CpsrBit.N] at isV isC isZ isN
      omega
    exact (low j below).symm

/-- The flags of the exact difference `a - b`. -/
def ofDifference (a b : BitVec 32) : Flags where
  n := (a - b).msb
  z := a - b = 0
  c := NoBorrow a b false
  v := ¬ Fits 32 (a.toInt - b.toInt)

end Flags

/-- The comparison a condition stands for after comparing two words; the conditions on a
single flag stand for none.
-/
def Cond.relation : Cond → Option (BitVec 32 → BitVec 32 → Bool)
  | .EQ => some fun a b => a = b
  | .NE => some fun a b => a ≠ b
  | .CS_HS => some fun a b => b.toNat ≤ a.toNat
  | .CC_LO => some fun a b => a.toNat < b.toNat
  | .HI => some fun a b => b.toNat < a.toNat
  | .LS => some fun a b => a.toNat ≤ b.toNat
  | .GE => some fun a b => b.toInt ≤ a.toInt
  | .LT => some fun a b => a.toInt < b.toInt
  | .GT => some fun a b => b.toInt < a.toInt
  | .LE => some fun a b => a.toInt ≤ b.toInt
  | .MI | .PL | .VS | .VC | .AL => none

/-- The sign and overflow of a difference agree exactly when it is not negative.
Witness: the overflow rule for differences and the sign of the reduced difference.
-/
theorem msb_sub_eq_overflow_iff (a b : BitVec 32)
    : (a - b).msb = decide (¬ Fits 32 (a.toInt - b.toInt)) ↔ b.toInt ≤ a.toInt := by
  obtain ⟨al, au, as⟩ := toInt_range (w := 32) (by decide) a
  obtain ⟨bl, bu, bs⟩ := toInt_range (w := 32) (by decide) b
  have sign := msb_ofInt (w := 32) (by decide) (i := a.toInt - b.toInt) (by omega) (by omega)
  rw [← sub_eq_ofInt] at sign
  rw [Bool.eq_iff_iff, sign, decide_eq_true_eq, Fits]
  omega

/-- The flags of an exact difference make every condition the comparison it stands for.
Witness: one case for each condition; the signed ones compare sign and overflow.
-/
theorem conditionPassed_ofDifference (a b cpsr ins : BitVec 32) {cond : Cond}
    {relation : BitVec 32 → BitVec 32 → Bool} (field : armGetCond ins = some cond)
    (compares : cond.relation = some relation)
    : conditionPassed ((Flags.ofDifference a b).put cpsr) ins = relation a b := by
  have zero : a - b = 0#32 ↔ a.toNat = b.toNat := by bv_omega
  have carry : NoBorrow a b false ↔ b.toNat ≤ a.toNat := by
    simp only [NoBorrow, Bool.toNat_false, Nat.add_zero]
  have signed : ((a - b).msb == decide (¬ Fits 32 (a.toInt - b.toInt)))
      = decide (b.toInt ≤ a.toInt) := by
    rw [Bool.eq_iff_iff, beq_iff_eq, decide_eq_true_eq]
    exact msb_sub_eq_overflow_iff a b
  have unsignedEq : a = b ↔ a.toNat = b.toNat := BitVec.toNat_inj.symm
  have signedEq : a.toNat = b.toNat ↔ a.toInt = b.toInt :=
    unsignedEq.symm.trans BitVec.toInt_inj.symm
  rw [conditionPassed_eq, field]
  cases cond <;> simp only [Cond.relation, Option.some.injEq, reduceCtorEq] at compares
  all_goals
    subst compares
    simp only [Flags.getLsbD_put_N, Flags.getLsbD_put_Z, Flags.getLsbD_put_C,
      Flags.getLsbD_put_V, Flags.ofDifference, bne, signed] <;>
      rw [Bool.eq_iff_iff] <;>
      simp only [BitVec.ofNat_eq_ofNat, zero, carry, unsignedEq, Bool.and_eq_true,
        Bool.or_eq_true, Bool.not_eq_true', decide_eq_true_eq, decide_eq_false_iff_not, ne_eq,
        decide_not] <;>
      omega

end Armator
