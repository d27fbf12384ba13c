import Armator.Correctness.FlatMemory

/-! Which accesses stay inside the allocation. The guards compare only the first address with the
size, so an access to the incomplete last unit of a memory reaches behind it.
-/

namespace Armator

open FlatMemory

namespace MemoryCall

/-- The width of a call in bytes. -/
def width : MemoryCall → Nat
  | readByte _ _ | writeByte _ _ => 1
  | readHalf _ _ | writeHalf _ _ => 2
  | readWord _ _ | writeWord _ _ => 4

def address : MemoryCall → BitVec 32
  | readByte address _ | readHalf address _ | readWord address _ => address
  | writeByte address _ | writeHalf address _ | writeWord address _ => address

/-- A call touches a byte of the array if its result depends on it, or if it may change it. -/
def Touches (host : Host) (size : Nat) (isBigEndian : Int) (call : MemoryCall) (j : Nat) : Prop :=
  (∃ contents other : Nat → BitVec 8,
    (∀ k, k ≠ j → contents k = other k)
    ∧ (memoryCall host (memoryCreate size isBigEndian contents) call).1
      ≠ (memoryCall host (memoryCreate size isBigEndian other) call).1)
  ∨ ∃ contents,
      (memoryCall host (memoryCreate size isBigEndian contents) call).2.data j ≠ contents j

section Calls

variable (host : Host) (size : Nat) (isBigEndian : Int) (call : MemoryCall)

/-- A call returns 0 iff its address passes the guards. -/
theorem status_eq_zero_iff (contents : Nat → BitVec 8)
    : (memoryCall host (memoryCreate size isBigEndian contents) call).1.1 = 0
      ↔ call.address.toNat < size ∧ call.address.toNat % call.width = 0 := by
  have status {α : Type} {test : Prop} [Decidable test] (good bad : α)
      : (if test then ((0 : Int), good) else (-1, bad)).1 = 0 ↔ test := by
    split
    · next holds => exact iff_of_true rfl holds
    · next fails => exact iff_of_false (show ¬(-1 : Int) = 0 by decide) fails
  cases call with
  | readByte address value =>
      simp only [memoryCall, memoryReadByte_eq, status]
      rfl
  | readHalf address value =>
      simp only [memoryCall, memoryReadHalf_eq, status]
      rfl
  | readWord address value =>
      simp only [memoryCall, memoryReadWord_eq, status]
      rfl
  | writeByte address value =>
      simp only [memoryCall, memoryWriteByte_eq, status]
      rfl
  | writeHalf address value =>
      simp only [memoryCall, memoryWriteHalf_eq, status]
      rfl
  | writeWord address value =>
      simp only [memoryCall, memoryWriteWord_eq, status]
      rfl

/-- A call that passes its guards touches as many bytes as it is wide, from its address on.
Witness: its request to the byte array.
-/
theorem touches_iff
    (passes : call.address.toNat < size ∧ call.address.toNat % call.width = 0) (j : Nat)
    : call.Touches host size isBigEndian j
      ↔ call.address.toNat ≤ j ∧ j < call.address.toNat + call.width := by
  let order := (memoryCreate size isBigEndian fun _ => 0).order host
  have flat : call.Touches host size isBigEndian j
      ↔ FlatMemory.Touches size order call.request j := by
    have result (contents : Nat → BitVec 8) :=
      (memoryCall_flatOn host (memoryCreate size isBigEndian contents) call).1
    have bytes (contents : Nat → BitVec 8) :=
      congrArg FlatMemory.bytes
        (memoryCall_flatOn host (memoryCreate size isBigEndian contents) call).2.1
    have data (contents : Nat → BitVec 8)
        : (memoryCall host (memoryCreate size isBigEndian contents) call).2.data
          = (step { size, order, bytes := contents } call.request).2.bytes :=
      bytes contents
    simp only [MemoryCall.Touches, FlatMemory.Touches, data, result]
    rfl
  rw [flat]
  have fits (w : Nat) (wide : w / 8 = call.width) (bytes : Nat → BitVec 8)
      : Fits { size, order, bytes } w call.address.toNat := by
    rw [Fits, wide]
    exact passes
  cases call with
  | readByte address value => exact touches_read_iff (by decide) (fits 8 rfl) j value
  | readHalf address value => exact touches_read_iff (by decide) (fits 16 rfl) j value
  | readWord address value => exact touches_read_iff (by decide) (fits 32 rfl) j value
  | writeByte address value => exact touches_write_iff (fits 8 rfl) j value
  | writeHalf address value => exact touches_write_iff (fits 16 rfl) j value
  | writeWord address value => exact touches_write_iff (fits 32 rfl) j value

end Calls

end MemoryCall

/-- A call that returns 0 touches bytes inside the array only, unless the size is no multiple of
its width and its address is that of the incomplete last unit.
-/
theorem memoryCall_inside_iff (host : Host) (size : Nat) (isBigEndian : Int) (call : MemoryCall)
    : (∀ contents,
        (memoryCall host (memoryCreate size isBigEndian contents) call).1.1 = 0
        → ∀ j, call.Touches host size isBigEndian j → j < size)
      ↔ size % call.width = 0 ∨ call.address.toNat ≠ size - size % call.width := by
  have width : call.width = 1 ∨ call.width = 2 ∨ call.width = 4 := by
    cases call <;> simp [MemoryCall.width]
  have inside : (∀ contents,
        (memoryCall host (memoryCreate size isBigEndian contents) call).1.1 = 0
        → ∀ j, call.Touches host size isBigEndian j → j < size)
      ↔ (call.address.toNat < size → call.address.toNat % call.width = 0
        → call.address.toNat + call.width ≤ size) := by
    constructor
    · intro stays below aligned
      have passes := And.intro below aligned
      have last := stays (fun _ => 0)
        ((MemoryCall.status_eq_zero_iff host size isBigEndian call _).mpr passes)
        (call.address.toNat + call.width - 1)
        ((MemoryCall.touches_iff host size isBigEndian call passes _).mpr (by omega))
      omega
    · intro fits contents returned j touched
      have passes := (MemoryCall.status_eq_zero_iff host size isBigEndian call contents).mp returned
      have range := (MemoryCall.touches_iff host size isBigEndian call passes j).mp touched
      have whole := fits passes.1 passes.2
      omega
  rw [inside]
  rcases width with width | width | width <;> rw [width] <;> omega

/-- A memory of three bytes answers a halfword at address 2 and touches the byte behind it. -/
theorem threeBytes_halfOutside
    : (∀ contents,
        (memoryCall (.plain .little) (memoryCreate 3 0 contents) (.readHalf 2 0)).1.1 = 0)
      ∧ (MemoryCall.readHalf 2 0).Touches (.plain .little) 3 0 3 :=
  ⟨fun contents =>
      (MemoryCall.status_eq_zero_iff (.plain .little) 3 0 (.readHalf 2 0) contents).mpr (by decide),
    (MemoryCall.touches_iff (.plain .little) 3 0 (.readHalf 2 0) (by decide) 3).mpr
      (by decide)⟩

end Armator
