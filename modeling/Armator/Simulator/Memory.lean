import Armator.Lib.ByteStore
import Armator.Simulator.Util

/-! `memory.c`: the simulated memory.
`data` is the array behind `mem->data`; the bytes from index `size` on are whatever lies
after the allocation. A read takes the old `*value` and gives back the new one.
-/

namespace Armator

structure Memory where
  size : Nat
  isBigEndian : Int
  data : Nat → BitVec 8

/-- `memory_create`; `malloc` leaves the contents to the host. -/
def memoryCreate (size : Nat) (isBigEndian : Int) (contents : Nat → BitVec 8) : Memory :=
  { size, isBigEndian, data := contents }

def memoryGetSize (mem : Memory) : Nat :=
  mem.size

/-- The assignment `mem->data[address] = value`. -/
def Memory.setByte (mem : Memory) (address : BitVec 32) (value : BitVec 8) : Memory :=
  { mem with data := fun j => if j = address.toNat then value else mem.data j }

def memoryReadByte (mem : Memory) (address : BitVec 32) (value : BitVec 8)
    : Int × BitVec 8 :=
  if address.toNat ≥ memoryGetSize mem then (-1, value)
  else (0, mem.data address.toNat)

def memoryReadHalf (host : Host) (mem : Memory) (address : BitVec 32) (value : BitVec 16)
    : Int × BitVec 16 :=
  if address.toNat ≥ memoryGetSize mem then (-1, value)
  else if address.toNat % 2 ≠ 0 then (-1, value)
  else
    -- the cast to `uint16_t *` reads the bytes in the host's own order
    let value := host.order.ofBytes 16 fun i => mem.data (address.toNat + i)
    (0, if host.isBigEndian ≠ mem.isBigEndian then reverse2 value else value)

def memoryReadWord (host : Host) (mem : Memory) (address : BitVec 32) (value : BitVec 32)
    : Int × BitVec 32 :=
  if address.toNat ≥ memoryGetSize mem then (-1, value)
  else if address.toNat % 4 ≠ 0 then (-1, value)
  else
    let value := host.order.ofBytes 32 fun i => mem.data (address.toNat + i)
    (0, if host.isBigEndian ≠ mem.isBigEndian then reverse4 value else value)

def memoryWriteByte (mem : Memory) (address : BitVec 32) (value : BitVec 8)
    : Int × Memory :=
  if address.toNat ≥ memoryGetSize mem then (-1, mem)
  else (0, mem.setByte address value)

def memoryWriteHalf (host : Host) (mem : Memory) (address : BitVec 32) (value : BitVec 16)
    : Int × Memory :=
  if address.toNat ≥ memoryGetSize mem then (-1, mem)
  else if address.toNat % 2 ≠ 0 then (-1, mem)
  else
    let value := if host.isBigEndian ≠ mem.isBigEndian then reverse2 value else value
    (0, (List.range 2).foldl
      (fun mem i => mem.setByte (address + BitVec.ofNat 32 i) (host.order.byteOf value i))
      mem)

def memoryWriteWord (host : Host) (mem : Memory) (address : BitVec 32) (value : BitVec 32)
    : Int × Memory :=
  if address.toNat ≥ memoryGetSize mem then (-1, mem)
  else if address.toNat % 4 ≠ 0 then (-1, mem)
  else
    let value := if host.isBigEndian ≠ mem.isBigEndian then reverse4 value else value
    (0, (List.range 4).foldl
      (fun mem i => mem.setByte (address + BitVec.ofNat 32 i) (host.order.byteOf value i))
      mem)

/-- The order in which the multi-byte accesses read and write the array: the host's own
order when `is_big_endian()` equals the memory's flag, else the other one.
-/
def Memory.order (host : Host) (mem : Memory) : ByteOrder :=
  if host.isBigEndian = mem.isBigEndian then host.order else host.order.swap

/-- The guard of an access of `n` bytes: it looks at the first byte and the alignment. -/
def Memory.Accessible (mem : Memory) (n : Nat) (address : BitVec 32) : Prop :=
  address.toNat < mem.size ∧ address.toNat % n = 0

instance (mem : Memory) (n : Nat) (address : BitVec 32)
    : Decidable (mem.Accessible n address) :=
  inferInstanceAs (Decidable (_ ∧ _))

theorem Host.isBigEndian_eq (host : Host)
    : host.isBigEndian = match host.order with | .little => 0 | .big => 1 := by
  unfold Host.isBigEndian
  cases host.order <;> decide

/-- For the two flags `memory_create` is meant for, the order is the memory's own,
whatever the host. Witness: the four host and flag combinations.
-/
theorem Memory.order_eq_of_flag (host : Host) (mem : Memory)
    (flag : mem.isBigEndian = 0 ∨ mem.isBigEndian = 1)
    : mem.order host = if mem.isBigEndian = 1 then .big else .little := by
  unfold Memory.order
  rw [Host.isBigEndian_eq]
  rcases flag with flag | flag <;> rw [flag] <;> cases host.order <;> rfl

/-- On a little-endian host every nonzero flag means big-endian. -/
theorem Memory.order_eq_of_little {host : Host} (little : host.order = .little) (mem : Memory)
    : mem.order host = if mem.isBigEndian = 0 then .little else .big := by
  unfold Memory.order
  rw [Host.isBigEndian_eq, little]
  by_cases flag : mem.isBigEndian = 0
  · simp [flag]
  · simp [flag, ByteOrder.swap, Ne.symm flag]

theorem reverse2_eq (x : BitVec 16) : reverse2 x = ByteOrder.reverseBytes x := by
  apply BitVec.eq_of_getLsbD_eq
  intro j hj
  rw [ByteOrder.getLsbD_reverseBytes]
  simp only [reverse2, BitVec.getLsbD_or, BitVec.getLsbD_and, BitVec.getLsbD_shiftLeft,
    BitVec.getLsbD_ushiftRight]
  interval_cases j <;> simp

theorem reverse4_eq (x : BitVec 32) : reverse4 x = ByteOrder.reverseBytes x := by
  apply BitVec.eq_of_getLsbD_eq
  intro j hj
  rw [ByteOrder.getLsbD_reverseBytes]
  simp only [reverse4, BitVec.getLsbD_or, BitVec.getLsbD_and, BitVec.getLsbD_shiftLeft,
    BitVec.getLsbD_ushiftRight]
  interval_cases j <;> simp

/-- The value a read leaves after its conditional swap is a load in the memory's order. -/
theorem ofBytes_swapped (host : Host) (mem : Memory) {w : Nat} (hw : 8 ∣ w) (a : Nat)
    : (if host.isBigEndian ≠ mem.isBigEndian then
        ByteOrder.reverseBytes (host.order.ofBytes w fun i => mem.data (a + i))
      else host.order.ofBytes w fun i => mem.data (a + i))
      = ByteStore.load (mem.order host) w mem.data a := by
  unfold Memory.order ByteStore.load
  by_cases same : host.isBigEndian = mem.isBigEndian
  · simp only [same, ne_eq, not_true_eq_false, if_false, if_true]
  · simp only [same, ne_eq, not_false_eq_true, if_true, if_false,
      ByteOrder.ofBytes_swap _ hw]

/-- Setting `n` bytes one after the other sets exactly the `n` bytes from `address` on,
by induction on the count; the index must not wrap.
-/
theorem setBytes_data (mem : Memory) (address : BitVec 32) (f : Nat → BitVec 8) (n : Nat)
    (fits : address.toNat + n ≤ 2 ^ 32)
    : (List.range n).foldl (fun mem i => mem.setByte (address + BitVec.ofNat 32 i) (f i)) mem
      = { mem with
          data := fun j =>
            if address.toNat ≤ j ∧ j < address.toNat + n then f (j - address.toNat)
            else mem.data j } := by
  induction n with
  | zero =>
      have none : ∀ j, ¬ (address.toNat ≤ j ∧ j < address.toNat + 0) := by omega
      simp only [List.range_zero, List.foldl_nil, none, if_false]
  | succ n ih =>
      have index : (address + BitVec.ofNat 32 n).toNat = address.toNat + n := by
        rw [BitVec.toNat_add, BitVec.toNat_ofNat]
        omega
      rw [List.range_succ, List.foldl_append, ih (by omega)]
      simp only [List.foldl_cons, List.foldl_nil, Memory.setByte, index, Memory.mk.injEq,
        true_and]
      funext j
      by_cases last : j = address.toNat + n
      · subst last
        simp
      · have range : (address.toNat ≤ j ∧ j < address.toNat + n)
            ↔ (address.toNat ≤ j ∧ j < address.toNat + (n + 1)) := by omega
        simp only [last, if_false, range]

/-- The bytes a write stores after its conditional swap are a store in the memory's
order. Witness: the byte loop, and reversal in one order being the other order.
-/
theorem setBytes_swapped (host : Host) (mem : Memory) {w : Nat} (hw : 8 ∣ w)
    (address : BitVec 32) (value : BitVec w) (fits : address.toNat + w / 8 ≤ 2 ^ 32)
    : (List.range (w / 8)).foldl
        (fun mem' i => mem'.setByte (address + BitVec.ofNat 32 i)
          (host.order.byteOf
            (if host.isBigEndian ≠ mem.isBigEndian then ByteOrder.reverseBytes value
              else value) i))
        mem
      = { mem with data := ByteStore.store (mem.order host) mem.data address.toNat value } := by
  rw [setBytes_data mem address _ _ fits]
  simp only [Memory.mk.injEq, true_and]
  funext j
  unfold ByteStore.store Memory.order
  by_cases range : address.toNat ≤ j ∧ j < address.toNat + w / 8
  · have inside : j - address.toNat < w / 8 := by omega
    by_cases same : host.isBigEndian = mem.isBigEndian
    · simp only [range, same, ne_eq, not_true_eq_false, and_self, if_true, if_false]
    · simp only [range, same, ne_eq, not_false_eq_true, and_self, if_true, if_false,
        ByteOrder.byteOf_reverseBytes _ hw _ inside]
  · simp only [range, if_false]

theorem memoryReadByte_eq (mem : Memory) (address : BitVec 32) (value : BitVec 8)
    : memoryReadByte mem address value
      = if mem.Accessible 1 address then (0, mem.data address.toNat) else (-1, value) := by
  by_cases below : address.toNat < mem.size <;>
    simp [memoryReadByte, memoryGetSize, Memory.Accessible, Nat.mod_one, below, Nat.not_le.mpr,
      Nat.le_of_not_lt]

/-- A half is read iff its address is in memory and even, in the memory's order. -/
theorem memoryReadHalf_eq (host : Host) (mem : Memory) (address : BitVec 32)
    (value : BitVec 16)
    : memoryReadHalf host mem address value
      = if mem.Accessible 2 address then
          (0, ByteStore.load (mem.order host) 16 mem.data address.toNat)
        else (-1, value) := by
  rw [← ofBytes_swapped host mem (by decide) address.toNat]
  by_cases below : address.toNat < mem.size <;> by_cases aligned : address.toNat % 2 = 0 <;>
    simp [memoryReadHalf, memoryGetSize, Memory.Accessible, reverse2_eq, below, aligned,
      Nat.not_le.mpr, Nat.le_of_not_lt]

/-- A word is read iff its address is in memory and a multiple of 4, in the memory's
order.
-/
theorem memoryReadWord_eq (host : Host) (mem : Memory) (address : BitVec 32)
    (value : BitVec 32)
    : memoryReadWord host mem address value
      = if mem.Accessible 4 address then
          (0, ByteStore.load (mem.order host) 32 mem.data address.toNat)
        else (-1, value) := by
  rw [← ofBytes_swapped host mem (by decide) address.toNat]
  by_cases below : address.toNat < mem.size <;> by_cases aligned : address.toNat % 4 = 0 <;>
    simp [memoryReadWord, memoryGetSize, Memory.Accessible, reverse4_eq, below, aligned,
      Nat.not_le.mpr, Nat.le_of_not_lt]

theorem memoryWriteByte_eq (mem : Memory) (address : BitVec 32) (value : BitVec 8)
    : memoryWriteByte mem address value
      = if mem.Accessible 1 address then
          (0, { mem with data := fun j => if j = address.toNat then value else mem.data j })
        else (-1, mem) := by
  by_cases below : address.toNat < mem.size <;>
    simp [memoryWriteByte, memoryGetSize, Memory.Accessible, Memory.setByte, Nat.mod_one, below,
      Nat.not_le.mpr, Nat.le_of_not_lt]

/-- A half is written under the same guard as it is read, in the same order. -/
theorem memoryWriteHalf_eq (host : Host) (mem : Memory) (address : BitVec 32)
    (value : BitVec 16)
    : memoryWriteHalf host mem address value
      = if mem.Accessible 2 address then
          (0, { mem with
            data := ByteStore.store (mem.order host) mem.data address.toNat value })
        else (-1, mem) := by
  by_cases below : address.toNat < mem.size <;> by_cases aligned : address.toNat % 2 = 0
  · have stored := setBytes_swapped host mem (by decide) address value (by omega)
    simp only [memoryWriteHalf, memoryGetSize, Memory.Accessible, reverse2_eq, ge_iff_le, below,
      aligned, Nat.not_le.mpr, ne_eq, not_true_eq_false, if_false, and_self, if_true]
    exact congrArg (Prod.mk 0) stored
  all_goals
    simp [memoryWriteHalf, memoryGetSize, Memory.Accessible, below, aligned, Nat.le_of_not_lt]

/-- A word is written under the same guard as it is read, in the same order. -/
theorem memoryWriteWord_eq (host : Host) (mem : Memory) (address : BitVec 32)
    (value : BitVec 32)
    : memoryWriteWord host mem address value
      = if mem.Accessible 4 address then
          (0, { mem with
            data := ByteStore.store (mem.order host) mem.data address.toNat value })
        else (-1, mem) := by
  by_cases below : address.toNat < mem.size <;> by_cases aligned : address.toNat % 4 = 0
  · have stored := setBytes_swapped host mem (by decide) address value (by omega)
    simp only [memoryWriteWord, memoryGetSize, Memory.Accessible, reverse4_eq, ge_iff_le, below,
      aligned, Nat.not_le.mpr, ne_eq, not_true_eq_false, if_false, and_self, if_true]
    exact congrArg (Prod.mk 0) stored
  all_goals
    simp [memoryWriteWord, memoryGetSize, Memory.Accessible, below, aligned, Nat.le_of_not_lt]

end Armator
