import Armator.Lib.ByteOrder

/-! Words stored in a flat array of bytes.
The array is a total function: what lies beyond its owner's bound is the owner's business.
-/

namespace ByteStore

/-- The `w`-bit word whose lowest byte stands at address `a`. -/
def load (order : ByteOrder) (w : Nat) (bytes : Nat → BitVec 8) (a : Nat) : BitVec w :=
  order.ofBytes w fun i => bytes (a + i)

/-- The bytes after the word `x` is written at address `a`. -/
def store (order : ByteOrder) {w : Nat} (bytes : Nat → BitVec 8) (a : Nat) (x : BitVec w)
    : Nat → BitVec 8 :=
  fun j => if a ≤ j ∧ j < a + w / 8 then order.byteOf x (j - a) else bytes j

variable {order : ByteOrder} {w : Nat} {bytes : Nat → BitVec 8}

/-- Bytes outside the written word keep their value. -/
theorem store_outside {a j : Nat} {x : BitVec w} (outside : ¬ (a ≤ j ∧ j < a + w / 8))
    : store order bytes a x j = bytes j :=
  if_neg outside

/-- Bytes inside the written word are the word's bytes. -/
theorem store_inside {a i : Nat} {x : BitVec w} (inside : i < w / 8)
    : store order bytes a x (a + i) = order.byteOf x i := by
  have range : a ≤ a + i ∧ a + i < a + w / 8 := by omega
  simp only [store, range, and_self, if_true, Nat.add_sub_cancel_left]

/-- A byte is loaded as it is, in either order. -/
theorem load_byte (a : Nat) : load order 8 bytes a = bytes a := by
  have place : order.place (8 / 8) 0 = 0 := by cases order <;> rfl
  apply BitVec.eq_of_getLsbD_eq
  intro j hj
  have first : j / 8 = 0 := by omega
  have whole : j % 8 = j := by omega
  rw [load, order.getLsbD_ofBytes, first, whole, place, decide_eq_true hj, Bool.true_and,
    Nat.add_zero]

/-- A byte is stored as it is, in either order. -/
theorem store_byte (a : Nat) (x : BitVec 8)
    : store order bytes a x = fun j => if j = a then x else bytes j := by
  have place : order.place (8 / 8) 0 = 0 := by cases order <;> rfl
  funext j
  by_cases here : j = a
  · subst here
    have inside : j ≤ j ∧ j < j + 8 / 8 := by omega
    rw [store, if_pos inside, if_pos rfl, Nat.sub_self, ByteOrder.byteOf, place]
    exact BitVec.eq_of_getLsbD_eq fun i hi => by
      rw [BitVec.getLsbD_extractLsb', decide_eq_true hi, Bool.true_and, Nat.mul_zero,
        Nat.zero_add]
  · rw [store_outside (by omega), if_neg here]

/-- A load depends on the word's own bytes only. -/
theorem load_congr {other : Nat → BitVec 8} {a : Nat} (hw : 8 ∣ w)
    (same : ∀ j, a ≤ j → j < a + w / 8 → bytes j = other j)
    : load order w bytes a = load order w other a :=
  order.ofBytes_congr hw fun i hi => same (a + i) (by omega) (by omega)

/-- A word is 0 iff its bytes are. -/
theorem load_eq_zero_iff (hw : 8 ∣ w) (a : Nat)
    : load order w bytes a = 0 ↔ ∀ i < w / 8, bytes (a + i) = 0 := by
  constructor
  · intro zero i hi
    have byte := order.byteOf_ofBytes (fun i => bytes (a + i)) hi
    rw [load] at zero
    rw [← byte, zero, ByteOrder.byteOf]
    exact BitVec.extractLsb'_zero
  · intro zero
    have blank : order.ofBytes w (order.byteOf (0 : BitVec w)) = 0 := order.ofBytes_byteOf hw 0
    rw [← blank]
    refine order.ofBytes_congr hw fun i hi => ?_
    rw [zero i hi, ByteOrder.byteOf]
    exact BitVec.extractLsb'_zero.symm

/-- A stored word is loaded back. Witness: the byte-order round trip. -/
theorem load_store (hw : 8 ∣ w) (a : Nat) (x : BitVec w)
    : load order w (store order bytes a x) a = x := by
  calc load order w (store order bytes a x) a
      = order.ofBytes w (order.byteOf x) :=
        order.ofBytes_congr hw fun i hi => store_inside hi
    _ = x := order.ofBytes_byteOf hw x

/-- A word stored over a whole number of smaller ones is read back in parts: the part at
position `k` has the significance of that position.
-/
theorem load_part {v m k : Nat} (hv : 8 ∣ v) (parts : w = v * m) (inside : k < m) (a : Nat)
    (x : BitVec w)
    : load order v (store order bytes a x) (a + v / 8 * k)
      = x.extractLsb' (v * order.place m k) v := by
  obtain ⟨n, rfl⟩ := hv
  obtain ⟨rest, rfl⟩ : ∃ rest, m = rest + k + 1 := ⟨m - k - 1, by omega⟩
  have width : 8 * n / 8 = n := Nat.mul_div_cancel_left n (by decide)
  have whole : w / 8 = n * rest + n * k + n := by
    rw [parts, Nat.mul_assoc, Nat.mul_div_cancel_left _ (by decide)]
    ring
  apply BitVec.eq_of_getLsbD_eq
  intro j hj
  have below : j / 8 < n := by omega
  have placed := order.place_lt below
  rw [load, order.getLsbD_ofBytes, width, decide_eq_true hj, Bool.true_and, Nat.add_assoc,
    store_inside (by omega), order.getLsbD_byteOf, decide_eq_true (Nat.mod_lt j (by decide)),
    Bool.true_and, BitVec.getLsbD_extractLsb', decide_eq_true hj, Bool.true_and, whole]
  congr 1
  cases order with
  | little =>
      simp only [ByteOrder.place, Nat.mul_assoc]
      omega
  | big =>
      have position : rest + k + 1 - 1 - k = rest := by omega
      simp only [ByteOrder.place, position, Nat.mul_assoc]
      omega

/-- Storing the word that is already there changes nothing, and nothing else does. -/
theorem store_eq_self_iff (hw : 8 ∣ w) (a : Nat) (x : BitVec w)
    : store order bytes a x = bytes ↔ load order w bytes a = x := by
  constructor
  · intro same
    have loaded : load order w (store order bytes a x) a = x := load_store hw a x
    rwa [same] at loaded
  · rintro rfl
    funext j
    by_cases inside : a ≤ j ∧ j < a + w / 8
    · obtain ⟨i, rfl⟩ : ∃ i, j = a + i := ⟨j - a, by omega⟩
      have offset : i < w / 8 := by omega
      rw [store_inside offset, load, order.byteOf_ofBytes _ offset]
    · exact store_outside inside

/-- The last of two stores to one address wins. -/
theorem store_store (a : Nat) (x y : BitVec w)
    : store order (store order bytes a x) a y = store order bytes a y := by
  funext j
  simp only [store]
  split <;> rfl

/-- Two words of `w` bits at `a` and `b` share no byte. -/
def Apart (w a b : Nat) : Prop :=
  a + w / 8 ≤ b ∨ b + w / 8 ≤ a

/-- The bytes after the words of `writes` are written one after the other. -/
def storeAll (order : ByteOrder) (bytes : Nat → BitVec 8) (writes : List (Nat × BitVec w))
    : Nat → BitVec 8 :=
  writes.foldl (fun bytes write => store order bytes write.1 write.2) bytes

@[simp]
theorem storeAll_nil : storeAll order bytes ([] : List (Nat × BitVec w)) = bytes := rfl

@[simp]
theorem storeAll_cons (write : Nat × BitVec w) (rest : List (Nat × BitVec w))
    : storeAll order bytes (write :: rest)
      = storeAll order (store order bytes write.1 write.2) rest :=
  rfl

theorem storeAll_append (first second : List (Nat × BitVec w))
    : storeAll order bytes (first ++ second)
      = storeAll order (storeAll order bytes first) second :=
  List.foldl_append

/-- A byte outside every written word keeps its value, by induction on the writes. -/
theorem storeAll_outside {j : Nat} (writes : List (Nat × BitVec w))
    (outside : ∀ write ∈ writes, ¬ (write.1 ≤ j ∧ j < write.1 + w / 8))
    : storeAll order bytes writes j = bytes j := by
  induction writes generalizing bytes with
  | nil => rfl
  | cons write rest ih =>
      rw [storeAll_cons, ih fun later member => outside later (List.mem_cons_of_mem _ member)]
      exact store_outside (outside write List.mem_cons_self)

/-- A word apart from every written word is loaded as before. -/
theorem load_storeAll_apart (hw : 8 ∣ w) {b : Nat} (writes : List (Nat × BitVec w))
    (apart : ∀ write ∈ writes, Apart w write.1 b)
    : load order w (storeAll order bytes writes) b = load order w bytes b := by
  refine load_congr hw fun j lower upper => storeAll_outside writes fun write member => ?_
  have separate := apart write member
  unfold Apart at separate
  omega

/-- Words that share no byte with one another are all loaded back.
Witness: induction on the writes; the later ones do not touch the first.
-/
theorem load_storeAll (hw : 8 ∣ w) (writes : List (Nat × BitVec w))
    (apart : writes.Pairwise fun first second => Apart w first.1 second.1)
    {write : Nat × BitVec w} (member : write ∈ writes)
    : load order w (storeAll order bytes writes) write.1 = write.2 := by
  induction writes generalizing bytes with
  | nil => cases member
  | cons head rest ih =>
      obtain ⟨headApart, restApart⟩ := List.pairwise_cons.mp apart
      rw [storeAll_cons]
      rcases List.mem_cons.mp member with rfl | later
      · rw [load_storeAll_apart hw rest fun next inRest => (headApart next inRest).symm]
        exact load_store hw _ _
      · exact ih restApart later

end ByteStore
