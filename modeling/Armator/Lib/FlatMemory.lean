import Armator.Lib.ByteStore

/-! A byte array that is read and written in aligned words of any width. -/

/-- An array of `size` bytes whose words stand in one byte order. -/
structure FlatMemory where
  size : Nat
  order : ByteOrder
  bytes : Nat → BitVec 8

namespace FlatMemory

/-- A word of `w` bits is read into a variable that holds `old`, or written. -/
inductive Request where
  | read (w address : Nat) (old : BitVec w)
  | write (w address : Nat) (value : BitVec w)

/-- The address of a request is inside the array and a multiple of the word's size. -/
def Fits (mem : FlatMemory) (w address : Nat) : Prop :=
  address < mem.size ∧ address % (w / 8) = 0

instance (mem : FlatMemory) (w address : Nat) : Decidable (mem.Fits w address) :=
  inferInstanceAs (Decidable (_ ∧ _))

/-- The status of a request with the number in its variable, and the array afterwards. -/
def step (mem : FlatMemory) : Request → (Int × Nat) × FlatMemory
  | .read w address old =>
      if mem.Fits w address then
        ((0, (ByteStore.load mem.order w mem.bytes address).toNat), mem)
      else ((-1, old.toNat), mem)
  | .write w address value =>
      if mem.Fits w address then
        ((0, value.toNat),
          { mem with bytes := ByteStore.store mem.order mem.bytes address value })
      else ((-1, value.toNat), mem)

/-- What a sequence of requests returns, and the array it leaves. -/
def run (mem : FlatMemory) : List Request → List (Int × Nat) × FlatMemory
  | [] => ([], mem)
  | request :: rest =>
      let first := mem.step request
      let later := first.2.run rest
      (first.1 :: later.1, later.2)

/-- The widths whose words lie inside an array of this size whenever their address does. -/
def Divides (mem : FlatMemory) (w : Nat) : Prop :=
  8 ∣ w ∧ w / 8 ∣ mem.size

def Request.width : Request → Nat
  | .read w _ _ => w
  | .write w _ _ => w

/-- A word that fits lies inside the array as a whole. -/
theorem Fits.inside {mem : FlatMemory} {w address : Nat} (fits : mem.Fits w address)
    (divides : mem.Divides w)
    : address + w / 8 ≤ mem.size := by
  obtain ⟨below, aligned⟩ := fits
  obtain ⟨k, size⟩ := divides.2
  obtain ⟨m, place⟩ := Nat.dvd_of_mod_eq_zero aligned
  rw [size, place] at below ⊢
  have counts : m + 1 ≤ k := Nat.lt_of_mul_lt_mul_left below
  calc w / 8 * m + w / 8 = w / 8 * (m + 1) := by ring
    _ ≤ w / 8 * k := Nat.mul_le_mul_left _ counts

/-- Requests of dividing widths leave everything behind the array alone, by induction on them. -/
theorem run_outside {mem : FlatMemory} (requests : List Request)
    (divides : ∀ request ∈ requests, mem.Divides request.width) {j : Nat} (outside : mem.size ≤ j)
    : (mem.run requests).2.bytes j = mem.bytes j := by
  induction requests generalizing mem with
  | nil => rfl
  | cons request rest ih =>
      have kept : (mem.step request).2.bytes j = mem.bytes j
          ∧ (mem.step request).2.size = mem.size := by
        have first := divides request List.mem_cons_self
        cases request with
        | read w address old =>
            rw [step]
            split <;> exact ⟨rfl, rfl⟩
        | write w address value =>
            rw [step]
            split
            · next fits =>
                refine ⟨ByteStore.store_outside fun inside => ?_, rfl⟩
                have bound := fits.inside first
                omega
            · exact ⟨rfl, rfl⟩
      have restDivides : ∀ next ∈ rest, (mem.step request).2.Divides next.width := by
        intro next member
        rw [Divides, kept.2]
        exact divides next (List.mem_cons_of_mem _ member)
      exact (ih restDivides (kept.2.symm ▸ outside)).trans kept.1

/-- A request touches a byte if its result depends on it, or if it may change it. -/
def Touches (size : Nat) (order : ByteOrder) (request : Request) (j : Nat) : Prop :=
  (∃ bytes other : Nat → BitVec 8,
    (∀ k, k ≠ j → bytes k = other k)
    ∧ (step { size, order, bytes } request).1 ≠ (step { size, order, bytes := other } request).1)
  ∨ ∃ bytes, (step { size, order, bytes } request).2.bytes j ≠ bytes j

section Touches

variable {size : Nat} {order : ByteOrder} {w address : Nat} (hw : 8 ∣ w)
  (fits : ∀ bytes, Fits { size, order, bytes } w address) (j : Nat)

include fits

include hw in
/-- A read that fits touches the bytes of its word and no others. Witness: two arrays that differ
in one byte, of which one holds the word 0.
-/
theorem touches_read_iff (old : BitVec w)
    : Touches size order (.read w address old) j ↔ address ≤ j ∧ j < address + w / 8 := by
  have result (bytes : Nat → BitVec 8)
      : step { size, order, bytes } (.read w address old)
        = ((0, (ByteStore.load order w bytes address).toNat), { size, order, bytes }) :=
    if_pos (fits bytes)
  simp only [Touches, result]
  constructor
  · rintro (⟨bytes, other, same, differs⟩ | ⟨bytes, changed⟩)
    · by_contra outside
      refine differs ?_
      rw [ByteStore.load_congr hw fun k low high => same k fun here => outside (here ▸ ⟨low, high⟩)]
    · exact absurd rfl changed
  · rintro ⟨low, high⟩
    refine .inl ⟨fun _ => 0, fun k => if k = j then 1 else 0, fun k other => ?_, fun same => ?_⟩
    · exact (if_neg other).symm
    · simp only [Prod.mk.injEq, true_and, BitVec.toNat_inj] at same
      rw [(ByteStore.load_eq_zero_iff hw address).mpr fun _ _ => rfl] at same
      have byte := (ByteStore.load_eq_zero_iff hw address).mp same.symm (j - address) (by omega)
      rw [Nat.add_sub_of_le low, if_pos rfl] at byte
      exact absurd byte (by decide)

/-- A write that fits touches the bytes of its word and no others. Witness: an array that holds
the complements of the bytes written.
-/
theorem touches_write_iff (value : BitVec w)
    : Touches size order (.write w address value) j ↔ address ≤ j ∧ j < address + w / 8 := by
  have result (bytes : Nat → BitVec 8)
      : step { size, order, bytes } (.write w address value)
        = ((0, value.toNat), { size, order, bytes := ByteStore.store order bytes address value }) :=
    if_pos (fits bytes)
  simp only [Touches, result]
  constructor
  · rintro (⟨bytes, other, -, differs⟩ | ⟨bytes, changed⟩)
    · exact absurd rfl differs
    · by_contra outside
      exact changed (ByteStore.store_outside outside)
  · intro inside
    refine .inr ⟨fun k => ~~~order.byteOf value (k - address), fun same => ?_⟩
    rw [ByteStore.store, if_pos inside] at same
    have bit := congrArg (fun byte : BitVec 8 => byte.getLsbD 0) same
    simp at bit

end Touches

end FlatMemory
