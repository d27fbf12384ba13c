import Mathlib

/-! Words as sequences of bytes in one of the two byte orders.
A word of `w` bits has the `w / 8` bytes at the offsets below `w / 8`.
-/

/-- Which end of a word stands at its lowest address. -/
inductive ByteOrder where
  | little
  | big
deriving DecidableEq, Repr

namespace ByteOrder

/-- The other byte order. -/
def swap : ByteOrder → ByteOrder
  | little => big
  | big => little

/-- The significance of the byte at offset `i` of an object of `n` bytes. -/
def place (order : ByteOrder) (n i : Nat) : Nat :=
  match order with
  | little => i
  | big => n - 1 - i

/-- Byte `i`, counted from the object's lowest address, of the word `x`. -/
def byteOf (order : ByteOrder) {w : Nat} (x : BitVec w) (i : Nat) : BitVec 8 :=
  x.extractLsb' (8 * order.place (w / 8) i) 8

/-- The `w`-bit word whose byte at offset `i` is `f i`. -/
def ofBytes (order : ByteOrder) (w : Nat) (f : Nat → BitVec 8) : BitVec w :=
  BitVec.ofFnLE fun j : Fin w => (f (order.place (w / 8) (j / 8))).getLsbD (j % 8)

@[simp]
theorem swap_swap (order : ByteOrder) : order.swap.swap = order := by
  cases order <;> rfl

/-- An offset inside the object has a significance inside the object. -/
theorem place_lt (order : ByteOrder) {n i : Nat} (hi : i < n) : order.place n i < n := by
  cases order with
  | little => exact hi
  | big => simp only [place]; omega

/-- Offsets and significances correspond one to one: the map is its own inverse. -/
theorem place_place (order : ByteOrder) {n i : Nat} (hi : i < n)
    : order.place n (order.place n i) = i := by
  cases order with
  | little => rfl
  | big => simp only [place]; omega

/-- Swapping the order reflects the offset inside the object. -/
theorem place_swap (order : ByteOrder) {n i : Nat} (hi : i < n)
    : order.swap.place n i = order.place n (n - 1 - i) := by
  cases order with
  | little => rfl
  | big => simp only [swap, place]; omega

/-- One bit of an assembled word is one bit of one of its bytes. -/
theorem getLsbD_ofBytes (order : ByteOrder) (w : Nat) (f : Nat → BitVec 8) (j : Nat)
    : (order.ofBytes w f).getLsbD j
      = (decide (j < w) && (f (order.place (w / 8) (j / 8))).getLsbD (j % 8)) := by
  by_cases hj : j < w
  · rw [BitVec.getLsbD_eq_getElem hj]
    simp [ofBytes, hj]
  · rw [BitVec.getLsbD_of_ge _ _ (Nat.le_of_not_lt hj)]
    simp [hj]

/-- One bit of a byte is one bit of the word it was taken from. -/
theorem getLsbD_byteOf (order : ByteOrder) {w : Nat} (x : BitVec w) (i j : Nat)
    : (order.byteOf x i).getLsbD j
      = (decide (j < 8) && x.getLsbD (8 * order.place (w / 8) i + j)) := by
  simp only [byteOf, BitVec.getLsbD_extractLsb']

/-- Only the bytes inside the object matter to the assembled word. -/
theorem ofBytes_congr (order : ByteOrder) {w : Nat} {f g : Nat → BitVec 8} (hw : 8 ∣ w)
    (same : ∀ i < w / 8, f i = g i)
    : order.ofBytes w f = order.ofBytes w g := by
  apply BitVec.eq_of_getLsbD_eq
  intro j hj
  have inside : j / 8 < w / 8 := by omega
  rw [getLsbD_ofBytes, getLsbD_ofBytes, same _ (order.place_lt inside)]

/-- Assembling the bytes of a word gives the word back. Witness: bit extensionality and
the inverse offset map.
-/
theorem ofBytes_byteOf (order : ByteOrder) {w : Nat} (hw : 8 ∣ w) (x : BitVec w)
    : order.ofBytes w (order.byteOf x) = x := by
  apply BitVec.eq_of_getLsbD_eq
  intro j hj
  have inside : j / 8 < w / 8 := by omega
  have whole : 8 * (j / 8) + j % 8 = j := by omega
  have below : j % 8 < 8 := Nat.mod_lt _ (by decide)
  simp only [getLsbD_ofBytes, getLsbD_byteOf, order.place_place inside, whole, hj, below,
    decide_true, Bool.true_and]

/-- Taking a byte of an assembled word gives that byte back. -/
theorem byteOf_ofBytes (order : ByteOrder) {w : Nat} (f : Nat → BitVec 8) {i : Nat}
    (hi : i < w / 8)
    : order.byteOf (order.ofBytes w f) i = f i := by
  apply BitVec.eq_of_getLsbD_eq
  intro j hj
  have placed := order.place_lt hi
  have quotient : (8 * order.place (w / 8) i + j) / 8 = order.place (w / 8) i := by omega
  have remainder : (8 * order.place (w / 8) i + j) % 8 = j := by omega
  have bound : 8 * order.place (w / 8) i + j < w := by omega
  simp only [getLsbD_byteOf, getLsbD_ofBytes, quotient, remainder, bound, hj,
    order.place_place hi, decide_true, Bool.true_and]

/-- The word with its bytes in the opposite order. -/
def reverseBytes {w : Nat} (x : BitVec w) : BitVec w :=
  ofBytes big w (byteOf little x)

/-- Reversal moves the byte of significance `k` to significance `n - 1 - k`. -/
theorem getLsbD_reverseBytes {w : Nat} (x : BitVec w) (j : Nat)
    : (reverseBytes x).getLsbD j
      = (decide (j < w) && x.getLsbD (8 * (w / 8 - 1 - j / 8) + j % 8)) := by
  have below : j % 8 < 8 := Nat.mod_lt _ (by decide)
  simp only [reverseBytes, getLsbD_ofBytes, getLsbD_byteOf, place, below, decide_true,
    Bool.true_and]

/-- Reading in one order is reading in the other order and reversing. -/
theorem ofBytes_swap (order : ByteOrder) {w : Nat} (hw : 8 ∣ w) (f : Nat → BitVec 8)
    : order.swap.ofBytes w f = reverseBytes (order.ofBytes w f) := by
  apply BitVec.eq_of_getLsbD_eq
  intro j hj
  have inside : j / 8 < w / 8 := by omega
  have quotient : (8 * (w / 8 - 1 - j / 8) + j % 8) / 8 = w / 8 - 1 - j / 8 := by omega
  have remainder : (8 * (w / 8 - 1 - j / 8) + j % 8) % 8 = j % 8 := by omega
  have bound : 8 * (w / 8 - 1 - j / 8) + j % 8 < w := by omega
  simp only [getLsbD_reverseBytes, getLsbD_ofBytes, quotient, remainder, bound, hj,
    order.place_swap inside, decide_true, Bool.true_and]

/-- Writing the reversed word in one order is writing the word in the other order. -/
theorem byteOf_reverseBytes (order : ByteOrder) {w : Nat} (hw : 8 ∣ w) (x : BitVec w)
    {i : Nat} (hi : i < w / 8)
    : order.byteOf (reverseBytes x) i = order.swap.byteOf x i := by
  have split : reverseBytes x = order.ofBytes w (order.swap.byteOf x) := by
    have swapped := order.swap.ofBytes_swap hw (order.swap.byteOf x)
    rw [swap_swap, ofBytes_byteOf order.swap hw] at swapped
    exact swapped.symm
  rw [split, byteOf_ofBytes order _ hi]

end ByteOrder
