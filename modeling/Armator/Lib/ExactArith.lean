import Mathlib

/-! Exact sums and differences behind the carry and overflow bits of a `w`-bit adder. -/

namespace ExactArith

/-- The integer `i` is the value of a signed `w`-bit word. -/
def Fits (w : Nat) (i : Int) : Prop :=
  -2 ^ (w - 1) ≤ i ∧ i < 2 ^ (w - 1)

instance (w : Nat) (i : Int) : Decidable (Fits w i) :=
  inferInstanceAs (Decidable (_ ∧ _))

/-- The unsigned sum with carry in reaches past the word. -/
def CarryOut {w : Nat} (x y : BitVec w) (carry : Bool) : Prop :=
  2 ^ w ≤ x.toNat + y.toNat + carry.toNat

instance {w : Nat} (x y : BitVec w) (carry : Bool) : Decidable (CarryOut x y carry) :=
  inferInstanceAs (Decidable (_ ≤ _))

/-- The unsigned difference with borrow in is not negative. -/
def NoBorrow {w : Nat} (x y : BitVec w) (borrow : Bool) : Prop :=
  y.toNat + borrow.toNat ≤ x.toNat

instance {w : Nat} (x y : BitVec w) (borrow : Bool) : Decidable (NoBorrow x y borrow) :=
  inferInstanceAs (Decidable (_ ≤ _))

variable {w : Nat}

/-- Comparing against what is left up to the largest word detects the carry. -/
theorem allOnes_sub_lt_iff (x y : BitVec w)
    : BitVec.allOnes w - x < y ↔ CarryOut x y false := by
  have bound := x.isLt
  have room : (BitVec.allOnes w - x).toNat = 2 ^ w - 1 - x.toNat := by
    rw [BitVec.toNat_sub_of_le (by rw [BitVec.le_def, BitVec.toNat_allOnes]; omega),
      BitVec.toNat_allOnes]
  rw [BitVec.lt_def, room, CarryOut, Bool.toNat_false]
  omega

/-- A sum of words is the exact sum, or one modulus below it. -/
theorem toNat_add_cases (x y : BitVec w)
    : (x.toNat + y.toNat < 2 ^ w ∧ (x + y).toNat = x.toNat + y.toNat)
      ∨ (2 ^ w ≤ x.toNat + y.toNat ∧ (x + y).toNat = x.toNat + y.toNat - 2 ^ w) := by
  have boundX := x.isLt
  have boundY := y.isLt
  by_cases fits : x.toNat + y.toNat < 2 ^ w
  · exact .inl ⟨fits, BitVec.toNat_add_of_lt fits⟩
  · refine .inr ⟨Nat.le_of_not_lt fits, ?_⟩
    rw [BitVec.toNat_add, Nat.mod_eq_sub_mod (Nat.le_of_not_lt fits), Nat.mod_eq_of_lt (by omega)]

/-- A difference of words is the exact difference, or one modulus above it. -/
theorem toNat_sub_cases (x y : BitVec w)
    : (y.toNat ≤ x.toNat ∧ (x - y).toNat = x.toNat - y.toNat)
      ∨ (x.toNat < y.toNat ∧ (x - y).toNat = 2 ^ w + x.toNat - y.toNat) := by
  have boundY := y.isLt
  by_cases order : y.toNat ≤ x.toNat
  · exact .inl ⟨order, BitVec.toNat_sub_of_le order⟩
  · have below := Nat.lt_of_not_le order
    refine .inr ⟨below, ?_⟩
    rw [BitVec.toNat_sub_of_lt below]
    omega

/-- A negated word is what is missing to the modulus, except for 0. -/
theorem toNat_neg_cases (x : BitVec w)
    : (x.toNat = 0 ∧ (-x).toNat = 0) ∨ (0 < x.toNat ∧ (-x).toNat = 2 ^ w - x.toNat) := by
  have bound := x.isLt
  rw [BitVec.toNat_neg]
  rcases Nat.eq_zero_or_pos x.toNat with zero | positive
  · exact .inl ⟨zero, by rw [zero, Nat.sub_zero, Nat.mod_self]⟩
  · exact .inr ⟨positive, Nat.mod_eq_of_lt (by omega)⟩

/-- A difference is the exact one, reduced to a word. -/
theorem sub_eq_ofInt (a b : BitVec w) : a - b = BitVec.ofInt w (a.toInt - b.toInt) := by
  simp only [Int.sub_eq_add_neg, BitVec.ofInt_add, BitVec.ofInt_neg, BitVec.ofInt_toInt,
    BitVec.sub_eq_add_neg]

/-- The sign bit of an integer reduced to a word, for integers less than one modulus away.
Witness: the remainder is the integer itself or the integer plus the modulus.
-/
theorem msb_ofInt (hw : 0 < w) {i : Int} (lower : -2 * 2 ^ (w - 1) ≤ i)
    (upper : i < 2 * 2 ^ (w - 1))
    : (BitVec.ofInt w i).msb = true
      ↔ 2 ^ (w - 1) ≤ i ∨ (-2 ^ (w - 1) ≤ i ∧ i < 0) := by
  have modulus : ((2 ^ w : Nat) : Int) = 2 * 2 ^ (w - 1) := by
    obtain ⟨n, rfl⟩ : ∃ n, w = n + 1 := ⟨w - 1, by omega⟩
    push_cast [Nat.add_sub_cancel, pow_succ]
    ring
  have value : ((BitVec.ofInt w i).toNat : Int) = if 0 ≤ i then i else i + 2 * 2 ^ (w - 1) := by
    rw [BitVec.toNat_ofInt, modulus, Int.toNat_of_nonneg (Int.emod_nonneg _ (by positivity))]
    split
    · next nonneg => exact Int.emod_eq_of_lt nonneg upper
    · next negative =>
        rw [← Int.add_emod_right]
        exact Int.emod_eq_of_lt (by omega) (by omega)
  rw [BitVec.msb_eq_decide, decide_eq_true_eq, ← Int.ofNat_le]
  push_cast
  rw [value]
  split <;> omega

/-- The signed value of a word lies in the signed range, negative with the sign bit. -/
theorem toInt_range (hw : 0 < w) (x : BitVec w)
    : -2 ^ (w - 1) ≤ x.toInt ∧ x.toInt < 2 ^ (w - 1) ∧ (x.msb = true ↔ x.toInt < 0) := by
  obtain ⟨n, rfl⟩ : ∃ n, w = n + 1 := ⟨w - 1, by omega⟩
  exact ⟨BitVec.le_toInt x, BitVec.toInt_lt, by rw [BitVec.msb_eq_toInt, decide_eq_true_eq]⟩

/-- Two Booleans agree when the propositions they decide do. -/
theorem bool_eq_iff {a b : Bool} {p q : Prop} (ha : a = true ↔ p) (hb : b = true ↔ q)
    : a = b ↔ (p ↔ q) := by
  rw [Bool.eq_iff_iff, ha, hb]

/-- A signed difference with borrow leaves the word exactly when the operands have
different signs and the result has not the first one's.
-/
theorem fits_sub_iff (hw : 0 < w) (x y : BitVec w) (borrow : Bool)
    : Fits w (x.toInt - y.toInt - borrow.toNat)
      ↔ ¬ (x.msb ≠ y.msb ∧ x.msb ≠ (x - y - BitVec.ofNat w borrow.toNat).msb) := by
  obtain ⟨xl, xu, xs⟩ := toInt_range hw x
  obtain ⟨yl, yu, ys⟩ := toInt_range hw y
  have small : (borrow.toNat : Int) ≤ 1 := by cases borrow <;> decide
  have exact : x - y - BitVec.ofNat w borrow.toNat
      = BitVec.ofInt w (x.toInt - y.toInt - borrow.toNat) := by
    simp only [Int.sub_eq_add_neg, BitVec.ofInt_add, BitVec.ofInt_neg, BitVec.ofInt_toInt,
      BitVec.ofInt_natCast, BitVec.sub_eq_add_neg]
  have sign := msb_ofInt hw (i := x.toInt - y.toInt - borrow.toNat) (by omega) (by omega)
  rw [exact, Fits, ne_eq, ne_eq, bool_eq_iff xs ys, bool_eq_iff xs sign]
  omega

end ExactArith
