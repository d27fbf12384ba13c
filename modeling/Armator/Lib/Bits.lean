import Mathlib.Algebra.Group.Nat.Defs

/-! Single bits and bit fields of fixed-width words, at any width. -/

namespace Bits

/-- A bit shifted down and masked is the number 1 or 0. Witness: bit extensionality. -/
theorem ushiftRight_and_one {w : Nat} (x : BitVec w) (i : Nat)
    : (x >>> i) &&& 1#w = if x.getLsbD i then 1#w else 0#w := by
  apply BitVec.eq_of_getLsbD_eq
  intro j hj
  by_cases h : x.getLsbD i <;> by_cases h0 : j = 0 <;> simp [h, h0, BitVec.getLsbD_one]

/-- The only set bit of a shifted one is the shift amount. -/
theorem getLsbD_one_shiftLeft {w : Nat} (i j : Nat)
    : (1#w <<< i).getLsbD j = (decide (j < w) && decide (i = j)) := by
  simp only [BitVec.getLsbD_shiftLeft, BitVec.getLsbD_one]
  by_cases hj : j < w <;> by_cases he : i = j
  · simp only [hj, he, decide_true, Nat.lt_irrefl, decide_false, Bool.not_false, Nat.sub_self,
      Nat.lt_of_le_of_lt (Nat.zero_le j) hj, Bool.true_and]
  · have hne : ¬ (i ≤ j ∧ j - i = 0) := by omega
    simp [hj, he]
    omega
  all_goals simp [hj]

/-- Set bit `i` of `x` to `b` with the usual masks: or in a one, or and out a zero. -/
def putBit {w : Nat} (x : BitVec w) (i : Nat) (b : Bool) : BitVec w :=
  if b then x ||| (1#w <<< i) else x &&& ~~~(1#w <<< i)

/-- Writing a bit changes that bit only. Witness: both masks, bit by bit. -/
theorem getLsbD_putBit {w : Nat} (x : BitVec w) (i j : Nat) (b : Bool)
    : (putBit x i b).getLsbD j = if i = j ∧ j < w then b else x.getLsbD j := by
  have hwide : ¬ j < w → x.getLsbD j = false :=
    fun h => BitVec.getLsbD_of_ge x j (Nat.le_of_not_lt h)
  cases b <;>
    simp only [putBit, Bool.false_eq_true, if_false, if_true, BitVec.getLsbD_and,
      BitVec.getLsbD_or, BitVec.getLsbD_not, getLsbD_one_shiftLeft] <;>
    by_cases hj : j < w <;> by_cases he : i = j <;>
    simp [hj, he, hwide]

/-- Two words with the same bits after a write had the same other bits. -/
theorem putBit_eq_self_iff {w : Nat} (x : BitVec w) (i : Nat) (b : Bool) (hi : i < w)
    : putBit x i b = x ↔ x.getLsbD i = b := by
  constructor
  · intro h
    rw [← h, getLsbD_putBit]
    simp [hi]
  · rintro rfl
    apply BitVec.eq_of_getLsbD_eq
    intro j hj
    rw [getLsbD_putBit]
    split
    · next h => rw [h.1]
    · rfl

/-- Writes to different bits commute. Witness: bit extensionality. -/
theorem putBit_comm {w : Nat} (x : BitVec w) {i j : Nat} (b c : Bool) (hij : i ≠ j)
    : putBit (putBit x i b) j c = putBit (putBit x j c) i b := by
  apply BitVec.eq_of_getLsbD_eq
  intro k hk
  simp only [getLsbD_putBit]
  grind

/-- The complement of a shifted all-ones word keeps the low `k` bits. -/
theorem getLsbD_lowMask {w : Nat} (k j : Nat)
    : (~~~(BitVec.allOnes w <<< k)).getLsbD j = (decide (j < w) && decide (j < k)) := by
  by_cases hj : j < w <;> by_cases hk : j < k <;>
    simp [hj, hk, BitVec.getLsbD_shiftLeft]

/-- A word shifted down and masked to `k` bits is the field as a number.
Witness: the low mask, bit by bit.
-/
theorem ushiftRight_and_lowMask {w : Nat} (x : BitVec w) (l k : Nat)
    : (x >>> l) &&& ~~~(BitVec.allOnes w <<< k) = (x.extractLsb' l k).setWidth w := by
  apply BitVec.eq_of_getLsbD_eq
  intro j hj
  simp only [BitVec.getLsbD_and, BitVec.getLsbD_ushiftRight, getLsbD_lowMask,
    BitVec.getLsbD_setWidth, BitVec.getLsbD_extractLsb', hj, decide_true, Bool.true_and]
  exact Bool.and_comm _ _

/-- A field's number, when it is taken with a shift and a mask of ones. -/
theorem toNat_ushiftRight_and_mask {w : Nat} (x : BitVec w) (l k : Nat) (fits : k ≤ w)
    : ((x >>> l) &&& BitVec.ofNat w (2 ^ k - 1)).toNat = (x.extractLsb' l k).toNat := by
  have mask : 2 ^ k - 1 < 2 ^ w := by
    have := Nat.pow_le_pow_right (by decide : 0 < 2) fits
    have := Nat.two_pow_pos k
    omega
  rw [BitVec.toNat_and, BitVec.toNat_ofNat, Nat.mod_eq_of_lt mask,
    Nat.and_two_pow_sub_one_eq_mod, BitVec.toNat_ushiftRight, BitVec.extractLsb'_toNat]

variable {w : Nat}

/-- The low `k` bits repeat upwards with period `2 * k`, zeros in between: the words on which
shifting left by `k` is shifting right by `k`.
-/
def LeftIsRight (x : BitVec w) (k : Nat) : Prop :=
  (∀ i < k, x.getLsbD (k + i) = false) ∧ ∀ i, i + k < w → x.getLsbD i = x.getLsbD (i + 2 * k)

/-- Witness: bit `i` of the one shift is bit `i - k` of the word, of the other bit `i + k`. -/
theorem shiftLeft_eq_ushiftRight_iff (x : BitVec w) {k : Nat} (inside : k < w)
    : x <<< k = x >>> k ↔ LeftIsRight x k := by
  constructor
  · intro same
    have bits (i : Nat) := congrArg (fun y => y.getLsbD i) same
    simp only [BitVec.getLsbD_shiftLeft, BitVec.getLsbD_ushiftRight] at bits
    refine ⟨fun i low => ?_, fun i high => ?_⟩
    · have bit := bits i
      have range : i < w := by omega
      simpa only [low, decide_true, Bool.not_true, Bool.and_false, Bool.false_and, eq_comm]
        using bit
    · have bit := bits (i + k)
      have notLow : ¬ i + k < k := by omega
      have index : k + (i + k) = i + 2 * k := by omega
      simpa only [high, notLow, decide_true, decide_false, Bool.not_false, Bool.and_true,
        Bool.true_and, Nat.add_sub_cancel, index] using bit
  · rintro ⟨zeros, period⟩
    apply BitVec.eq_of_getLsbD_eq
    intro i hi
    rw [BitVec.getLsbD_shiftLeft, BitVec.getLsbD_ushiftRight]
    by_cases low : i < k
    · simp only [low, zeros i low, decide_true, Bool.not_true, Bool.and_false, Bool.false_and]
    · have repeated := period (i - k) (by omega)
      rw [show i - k + 2 * k = k + i by omega] at repeated
      simp only [hi, low, decide_true, decide_false, Bool.not_false, Bool.and_true,
        Bool.true_and, repeated]

theorem rotateRight_zero (x : BitVec w) : x.rotateRight 0 = x := by
  apply BitVec.eq_of_getLsbD_eq
  intro i hi
  simp [hi]

/-- Words that may differ in their highest `k` bits only. -/
theorem eq_iff_of_high {x y : BitVec w} {k : Nat} {property : Nat → Prop} (inside : k < w)
    (bit : ∀ i < w, x.getLsbD i = y.getLsbD i ↔ (w - k ≤ i → property (i - (w - k))))
    : x = y ↔ ∀ i < k, property i := by
  constructor
  · intro same i low
    have moved := (bit (i + (w - k)) (by omega)).mp (by rw [same]) (by omega)
    rwa [Nat.add_sub_cancel] at moved
  · intro all
    apply BitVec.eq_of_getLsbD_eq
    intro i hi
    exact (bit i hi).mpr fun high => all _ (by omega)

/-- Rotating right is shifting right with sign exactly when the bits that come around are all
the sign bit.
-/
theorem sshiftRight_eq_rotateRight_iff (x : BitVec w) {k : Nat} (inside : k < w)
    : x.sshiftRight k = x.rotateRight k ↔ ∀ i < k, x.getLsbD i = x.msb := by
  have bit (i : Nat) (hi : i < w)
      : (x.sshiftRight k).getLsbD i = (x.rotateRight k).getLsbD i
        ↔ (w - k ≤ i → x.getLsbD (i - (w - k)) = x.msb) := by
    rw [BitVec.getLsbD_sshiftRight, BitVec.getLsbD_rotateRight, Nat.mod_eq_of_lt inside]
    by_cases high : i < w - k
    · have notHigh : ¬ w - k ≤ i := by omega
      have stays : k + i < w := by omega
      simp only [high, notHigh, stays, Nat.not_le.mpr hi, decide_true, decide_false,
        Bool.not_false, Bool.true_and, if_true, Bool.cond_true, false_implies]
    · have leaves : ¬ k + i < w := by omega
      simp only [high, leaves, hi, Nat.not_le.mpr hi, Nat.le_of_not_lt high, decide_true,
        decide_false, Bool.not_false, Bool.true_and, if_false, Bool.cond_false, true_implies,
        eq_comm]
  exact eq_iff_of_high inside bit

/-- Rotating right is shifting right exactly when the bits that come around are zero. -/
theorem rotateRight_eq_ushiftRight_iff (x : BitVec w) {k : Nat} (inside : k < w)
    : x.rotateRight k = x >>> k ↔ ∀ i < k, x.getLsbD i = false := by
  have bit (i : Nat) (hi : i < w)
      : (x.rotateRight k).getLsbD i = (x >>> k).getLsbD i
        ↔ (w - k ≤ i → x.getLsbD (i - (w - k)) = false) := by
    rw [BitVec.getLsbD_ushiftRight, BitVec.getLsbD_rotateRight, Nat.mod_eq_of_lt inside]
    by_cases high : i < w - k
    · have notHigh : ¬ w - k ≤ i := by omega
      simp only [high, notHigh, decide_true, Bool.cond_true, false_implies]
    · have leaves : x.getLsbD (k + i) = false := BitVec.getLsbD_of_ge _ _ (by omega)
      simp only [high, hi, leaves, Nat.le_of_not_lt high, decide_true, decide_false,
        Bool.true_and, Bool.cond_false, true_implies]
  exact eq_iff_of_high inside bit

/-- Shifting right with sign by the whole width leaves the sign everywhere. -/
theorem sshiftRight_of_le (x : BitVec w) {k : Nat} (beyond : w ≤ k)
    : x.sshiftRight k = if x.msb then BitVec.allOnes w else 0#w := by
  apply BitVec.eq_of_getLsbD_eq
  intro i hi
  have leaves : ¬ k + i < w := by omega
  rw [BitVec.getLsbD_sshiftRight]
  cases x.msb <;> simp [hi, leaves]

/-- Only the constant words survive a rotation through one more bit, and only when that bit
agrees. Witness: induction down from the top bit, each bit being its upper neighbour.
-/
theorem eq_putBit_ushiftRight_one_iff (x : BitVec w) (positive : 0 < w) (b : Bool)
    : x = putBit (x >>> 1) (w - 1) b ↔ x = if b then BitVec.allOnes w else 0#w := by
  constructor
  · intro same
    have bits (i : Nat) := congrArg (fun y => y.getLsbD i) same
    simp only [getLsbD_putBit, BitVec.getLsbD_ushiftRight] at bits
    have constant (n : Nat) : ∀ i, i + n = w - 1 → x.getLsbD i = b := by
      induction n with
      | zero =>
          intro i top
          have bit := bits i
          rwa [if_pos (by omega)] at bit
      | succ n ih =>
          intro i below
          have bit := bits i
          rw [if_neg (by omega), Nat.add_comm 1 i] at bit
          rw [bit, ih (i + 1) (by omega)]
    apply BitVec.eq_of_getLsbD_eq
    intro i hi
    rw [constant (w - 1 - i) i (by omega)]
    cases b <;> simp [hi]
  · intro constant
    apply BitVec.eq_of_getLsbD_eq
    intro i hi
    rw [getLsbD_putBit, BitVec.getLsbD_ushiftRight, constant]
    cases b
    · simp
    · simp [hi]
      omega

end Bits
