import Armator.Architecture.SingleTransfer
import Armator.Lib.FlatMemory

/-! The functions of `memory.c` behave as one byte array. -/

namespace Armator

open ByteStore FlatMemory

/-- A call of `memory.c`; a read is given the variable that its result goes to. -/
inductive MemoryCall where
  | readByte (address : BitVec 32) (value : BitVec 8)
  | readHalf (address : BitVec 32) (value : BitVec 16)
  | readWord (address : BitVec 32) (value : BitVec 32)
  | writeByte (address : BitVec 32) (value : BitVec 8)
  | writeHalf (address : BitVec 32) (value : BitVec 16)
  | writeWord (address : BitVec 32) (value : BitVec 32)

/-- What a call returns with the number in its variable, and the memory afterwards. -/
def memoryCall (host : Host) (mem : Memory) : MemoryCall → (Int × Nat) × Memory
  | .readByte address value =>
      let (result, value) := memoryReadByte mem address value
      ((result, value.toNat), mem)
  | .readHalf address value =>
      let (result, value) := memoryReadHalf host mem address value
      ((result, value.toNat), mem)
  | .readWord address value =>
      let (result, value) := memoryReadWord host mem address value
      ((result, value.toNat), mem)
  | .writeByte address value =>
      let (result, mem) := memoryWriteByte mem address value
      ((result, value.toNat), mem)
  | .writeHalf address value =>
      let (result, mem) := memoryWriteHalf host mem address value
      ((result, value.toNat), mem)
  | .writeWord address value =>
      let (result, mem) := memoryWriteWord host mem address value
      ((result, value.toNat), mem)

/-- What a sequence of calls returns, and the memory it leaves. -/
def memoryCalls (host : Host) (mem : Memory) : List MemoryCall → List (Int × Nat) × Memory
  | [] => ([], mem)
  | call :: rest =>
      let first := memoryCall host mem call
      let later := memoryCalls host first.2 rest
      (first.1 :: later.1, later.2)

/-- A memory as a byte array in its own byte order. -/
def Memory.flat (mem : Memory) : FlatMemory where
  size := mem.size
  order := mem.endianness
  bytes := mem.data

/-- A call as a request to that array. -/
def MemoryCall.request : MemoryCall → Request
  | .readByte address value => .read 8 address.toNat value
  | .readHalf address value => .read 16 address.toNat value
  | .readWord address value => .read 32 address.toNat value
  | .writeByte address value => .write 8 address.toNat value
  | .writeHalf address value => .write 16 address.toNat value
  | .writeWord address value => .write 32 address.toNat value

/-- For the two flags the order of the accesses is the memory's own, on either host. -/
theorem Memory.order_eq_endianness (host : Host) (mem : Memory)
    (flag : mem.isBigEndian = 0 ∨ mem.isBigEndian = 1)
    : mem.order host = mem.endianness := by
  rw [Memory.order_eq_of_flag host mem flag, Memory.endianness]
  rcases flag with flag | flag <;> rw [flag] <;> rfl

/-- A memory as the byte array that the host's accesses make of it, for any flag. -/
def Memory.flatOn (host : Host) (mem : Memory) : FlatMemory where
  size := mem.size
  order := mem.order host
  bytes := mem.data

/-- A call is its request to that array, and keeps the flag. Witness: one case for each function. -/
theorem memoryCall_flatOn (host : Host) (mem : Memory) (call : MemoryCall)
    : (memoryCall host mem call).1 = ((mem.flatOn host).step call.request).1
      ∧ (memoryCall host mem call).2.flatOn host = ((mem.flatOn host).step call.request).2
      ∧ (memoryCall host mem call).2.isBigEndian = mem.isBigEndian := by
  have fits (n : Nat) (address : BitVec 32)
      : (mem.flatOn host).Fits (8 * n) address.toNat ↔ mem.Accessible n address := by
    rw [Fits, Nat.mul_div_cancel_left n (by decide)]
    exact Iff.rfl
  cases call with
  | readByte address value =>
      simp only [memoryCall, MemoryCall.request, FlatMemory.step, memoryReadByte_eq, load_byte,
        fits 1 address]
      split <;> exact ⟨rfl, rfl, trivial⟩
  | readHalf address value =>
      simp only [memoryCall, MemoryCall.request, FlatMemory.step, memoryReadHalf_eq, fits 2 address]
      split <;> exact ⟨rfl, rfl, trivial⟩
  | readWord address value =>
      simp only [memoryCall, MemoryCall.request, FlatMemory.step, memoryReadWord_eq, fits 4 address]
      split <;> exact ⟨rfl, rfl, trivial⟩
  | writeByte address value =>
      simp only [memoryCall, MemoryCall.request, FlatMemory.step, memoryWriteByte_eq, store_byte,
        fits 1 address]
      split <;> exact ⟨rfl, rfl, rfl⟩
  | writeHalf address value =>
      simp only [memoryCall, MemoryCall.request, FlatMemory.step, memoryWriteHalf_eq,
        fits 2 address]
      split <;> exact ⟨rfl, rfl, rfl⟩
  | writeWord address value =>
      simp only [memoryCall, MemoryCall.request, FlatMemory.step, memoryWriteWord_eq,
        fits 4 address]
      split <;> exact ⟨rfl, rfl, rfl⟩

theorem Memory.flatOn_eq_flat (host : Host) {mem : Memory}
    (flag : mem.isBigEndian = 0 ∨ mem.isBigEndian = 1)
    : mem.flatOn host = mem.flat := by
  rw [Memory.flatOn, Memory.flat, mem.order_eq_endianness host flag]

/-- A call is its request to the array in the memory's own order, and keeps the flag. -/
theorem memoryCall_flat (host : Host) (mem : Memory)
    (flag : mem.isBigEndian = 0 ∨ mem.isBigEndian = 1) (call : MemoryCall)
    : (memoryCall host mem call).1 = (mem.flat.step call.request).1
      ∧ (memoryCall host mem call).2.flat = (mem.flat.step call.request).2
      ∧ (memoryCall host mem call).2.isBigEndian = mem.isBigEndian := by
  obtain ⟨result, state, kept⟩ := memoryCall_flatOn host mem call
  rw [Memory.flatOn_eq_flat host flag] at result state
  rw [Memory.flatOn_eq_flat host (kept ▸ flag)] at state
  exact ⟨result, state, kept⟩

/-- A sequence of calls is the sequence of their requests, by induction on it. -/
theorem memoryCalls_flat (host : Host) (mem : Memory)
    (flag : mem.isBigEndian = 0 ∨ mem.isBigEndian = 1) (calls : List MemoryCall)
    : (memoryCalls host mem calls).1 = (mem.flat.run (calls.map MemoryCall.request)).1
      ∧ (memoryCalls host mem calls).2.flat
        = (mem.flat.run (calls.map MemoryCall.request)).2 := by
  induction calls generalizing mem with
  | nil => exact ⟨rfl, rfl⟩
  | cons call rest ih =>
      obtain ⟨result, state, kept⟩ := memoryCall_flat host mem flag call
      obtain ⟨results, final⟩ := ih (memoryCall host mem call).2 (kept ▸ flag)
      rw [state] at results final
      refine ⟨?_, final⟩
      rw [memoryCalls, List.map_cons, FlatMemory.run]
      simp only [result, results]

/-- After a word is written it is read back, and so are its halves and its bytes, in the order of
the memory. Witness: the smaller words of a stored word.
-/
theorem memoryWriteWord_readsBack (host : Host) (mem : Memory)
    (multiple : mem.size % 4 = 0) (flag : mem.isBigEndian = 0 ∨ mem.isBigEndian = 1)
    (address value : BitVec 32) (accessible : mem.Accessible 4 address)
    : let written := (memoryWriteWord host mem address value).2
      (∀ old, memoryReadWord host written address old = (0, value))
      ∧ (∀ k < 2, ∀ old,
          memoryReadHalf host written (address + BitVec.ofNat 32 (2 * k)) old
            = (0, value.extractLsb' (16 * mem.endianness.place 2 k) 16))
      ∧ ∀ i < 4, ∀ old,
          memoryReadByte written (address + BitVec.ofNat 32 i) old
            = (0, value.extractLsb' (8 * mem.endianness.place 4 i) 8) := by
  obtain ⟨below, aligned⟩ := accessible
  have order := mem.order_eq_endianness host flag
  have written : (memoryWriteWord host mem address value).2
      = { mem with data := store mem.endianness mem.data address.toNat value } := by
    rw [memoryWriteWord_eq, if_pos ⟨below, aligned⟩, order]
  have place {i : Nat} (inside : i < 4)
      : (address + BitVec.ofNat 32 i).toNat = address.toNat + i := by
    rw [BitVec.toNat_add, BitVec.toNat_ofNat]
    omega
  rw [written]
  refine ⟨fun old => ?_, fun k inside old => ?_, fun i inside old => ?_⟩
  · rw [memoryReadWord_eq, if_pos ⟨below, aligned⟩]
    exact congrArg (Prod.mk 0) (order ▸ load_store (by decide) _ _)
  · have part : load mem.endianness 16 (store mem.endianness mem.data address.toNat value)
        (address.toNat + 16 / 8 * k) = _ :=
      load_part (by decide) (by decide : 32 = 16 * 2) inside _ _
    rw [memoryReadHalf_eq, place (by omega), if_pos, ← part]
    · exact congrArg (fun order => (0, load order 16 _ _)) order
    · refine ⟨?_, ?_⟩ <;> rw [place (by omega)]
      · change address.toNat + 2 * k < mem.size
        omega
      · omega
  · have part : load mem.endianness 8 (store mem.endianness mem.data address.toNat value)
        (address.toNat + 8 / 8 * i) = _ :=
      load_part (by decide) (by decide : 32 = 8 * 4) inside _ _
    rw [load_byte, Nat.div_self (by decide), Nat.one_mul] at part
    rw [memoryReadByte_eq, place inside, if_pos]
    · exact congrArg (Prod.mk 0) part
    refine ⟨?_, Nat.mod_one _⟩
    rw [place inside]
    change address.toNat + i < mem.size
    omega

/-- Any sequence of calls returns what a byte array in the memory's own order returns and leaves
the bytes it leaves, none of them behind the array; and what a call writes is read back.
-/
theorem memory_isFlat (host : Host) (mem : Memory) (multiple : mem.size % 4 = 0)
    (flag : mem.isBigEndian = 0 ∨ mem.isBigEndian = 1)
    : (∀ calls,
        (memoryCalls host mem calls).1 = (mem.flat.run (calls.map MemoryCall.request)).1
        ∧ (memoryCalls host mem calls).2.flat
          = (mem.flat.run (calls.map MemoryCall.request)).2
        ∧ ∀ j ≥ mem.size, (memoryCalls host mem calls).2.data j = mem.data j)
      ∧ ∀ address value,
          mem.Accessible 4 address
          → let written := (memoryWriteWord host mem address value).2
            (∀ old, memoryReadWord host written address old = (0, value))
            ∧ (∀ k < 2, ∀ old,
                memoryReadHalf host written (address + BitVec.ofNat 32 (2 * k)) old
                  = (0, value.extractLsb' (16 * mem.endianness.place 2 k) 16))
            ∧ ∀ i < 4, ∀ old,
                memoryReadByte written (address + BitVec.ofNat 32 i) old
                  = (0, value.extractLsb' (8 * mem.endianness.place 4 i) 8) := by
  refine ⟨fun calls => ?_, fun address value =>
    memoryWriteWord_readsBack host mem multiple flag address value⟩
  obtain ⟨results, final⟩ := memoryCalls_flat host mem flag calls
  refine ⟨results, final, fun j outside => ?_⟩
  have divides : ∀ request ∈ calls.map MemoryCall.request, mem.flat.Divides request.width := by
    intro request member
    obtain ⟨call, -, rfl⟩ := List.mem_map.mp member
    have four : 4 ∣ mem.size := Nat.dvd_of_mod_eq_zero multiple
    have byte : mem.flat.Divides 8 := ⟨by decide, one_dvd _⟩
    have half : mem.flat.Divides 16 := ⟨by decide, (by decide : 16 / 8 ∣ 4).trans four⟩
    have word : mem.flat.Divides 32 := ⟨by decide, four⟩
    cases call with
    | readByte | writeByte => exact byte
    | readHalf | writeHalf => exact half
    | readWord | writeWord => exact word
  have kept := run_outside _ divides outside
  rw [← final] at kept
  exact kept

/-- A word written to a big-endian memory on a little-endian host, and its second half. -/
theorem memory_isFlat_secondHalf
    : (memoryCalls (.plain .little) (memoryCreate 4 1 fun _ => 0)
        [.writeWord 0 0x01020304, .readHalf 2 0]).1
      = ((memoryCreate 4 1 fun _ => 0).flat.run
          [.write 32 0 (0x01020304 : BitVec 32), .read 16 2 (0 : BitVec 16)]).1 :=
  ((memory_isFlat (.plain .little) (memoryCreate 4 1 fun _ => 0) (by decide) (.inr rfl)).1
    [.writeWord 0 0x01020304, .readHalf 2 0]).1

end Armator
