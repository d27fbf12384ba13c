import Armator.Correctness.RegisterDump

/-! Words look the same to gdb in registers and in memory. -/

namespace Armator.Gdb

open CText Traced

/-- The kind of memory that `main` creates; the content is free. -/
structure MainMemory (env : Env) (mem : Memory) : Prop where
  size : mem.size = 0x20000
  flag : mem.isBigEndian = if env.bigEndianSimulator then 1 else 0

/-- The memory of `main` has the byte order of the build, on every host. -/
theorem MainMemory.order {env : Env} {mem : Memory} (created : MainMemory env mem)
    : mem.order env.host = env.targetOrder := by
  have flag := created.flag
  have known : mem.isBigEndian = 0 ∨ mem.isBigEndian = 1 := by
    rw [flag]
    cases env.bigEndianSimulator
    · exact .inl rfl
    · exact .inr rfl
  rw [Memory.order_eq_of_flag env.host mem known, flag, Env.targetOrder]
  cases env.bigEndianSimulator <;> rfl

section Words

variable {allowed : Event → Prop} {stopped : Stop → Prop} {gdb : Session}
  {post : Unit → Session → Prop} (checked : ∀ i, allowed (.write i) ↔ i < MAX_PACKET_SIZE)

include checked

/-- A word anywhere in the packet: each pair of digits goes over the NUL of the one before it. -/
theorem meets_writeUint32_at (env : Env) (index : Nat) (value : BitVec 32)
    (fits : index + 8 < MAX_PACKET_SIZE)
    : Meets allowed stopped post (writeUint32 env index value) gdb
      ↔ post () { gdb with packet := putBytes gdb.packet index (wordText env value ++ [0]) } := by
  let pair (k : Nat) := printHex2 (env.host.order.byteOf value (env.byteIndex k))
  have steps : List.range 4 = [0, 1, 2, 3] := rfl
  have two (k : Nat) : (pair k).length = 2 := rfl
  have nul {s : List (BitVec 8)} : ([0] : List (BitVec 8)).length ≤ (s ++ [0]).length := by simp
  have second : putBytes (putBytes gdb.packet index (pair 0 ++ [0])) (index + 2 * 1) (pair 1 ++ [0])
      = putBytes gdb.packet index (pair 0 ++ pair 1 ++ [0]) :=
    putBytes_append gdb.packet index (pair 0) [0] (pair 1 ++ [0]) nul
  have third
      : putBytes (putBytes gdb.packet index (pair 0 ++ pair 1 ++ [0])) (index + 2 * 2)
          (pair 2 ++ [0])
        = putBytes gdb.packet index (pair 0 ++ pair 1 ++ pair 2 ++ [0]) :=
    putBytes_append gdb.packet index (pair 0 ++ pair 1) [0] (pair 2 ++ [0]) nul
  have fourth
      : putBytes (putBytes gdb.packet index (pair 0 ++ pair 1 ++ pair 2 ++ [0])) (index + 2 * 3)
          (pair 3 ++ [0])
        = putBytes gdb.packet index (wordText env value ++ [0]) :=
    putBytes_append gdb.packet index (pair 0 ++ pair 1 ++ pair 2) [0] (pair 3 ++ [0]) nul
  have last
      : putBytes (putBytes gdb.packet index (wordText env value ++ [0])) (index + 8) [0]
        = putBytes gdb.packet index (wordText env value ++ [0]) :=
    putBytes_append gdb.packet index (wordText env value) [0] [0] (Nat.le_refl 1)
  have write (k : Nat) (below : k < 4) {s : Session} {next : Unit → Session → Prop}
      : Meets allowed stopped next (writeText (index + 2 * k) (pair k)) s
        ↔ next () { s with packet := putBytes s.packet (index + 2 * k) (pair k ++ [0]) } := by
    rw [meets_writeText checked _ _ (by omega), two]
    exact and_iff_right (by omega)
  rw [writeUint32, steps, meets_bind]
  simp only [meets_each_cons, meets_each_nil]
  rw [write 0 (by decide), write 1 (by decide), write 2 (by decide), write 3 (by decide),
    meets_writePacket checked]
  dsimp only
  rw [Nat.mul_zero, Nat.add_zero index, second, third, fourth, last]
  exact and_iff_right fits

end Words

/-- The bytes of a stored word are those of its digits. -/
theorem hexText_store {env : Env} {mem : Memory} (created : MainMemory env mem)
    {address : BitVec 32} (inside : address.toNat + 4 ≤ mem.size) (value : BitVec 32)
    : hexText
        (memoryBytes
          { mem with data := ByteStore.store (mem.order env.host) mem.data address.toNat value } 4
          address)
      = wordText env value := by
  have size := created.size
  rw [hexText, memoryBytes_eq_map, List.flatMap_map, wordText_eq, created.order]
  refine List.flatMap_congr fun k member => ?_
  have below := List.mem_range.mp member
  have place : (address + BitVec.ofNat 32 k).toNat = address.toNat + k := by
    rw [BitVec.toNat_add, BitVec.toNat_ofNat]
    omega
  dsimp only
  rw [place, ByteStore.store_inside (by omega)]

/-- The digits that `write_uint32` prints for the word are those that `m` answers for the four bytes
at the address, once the word is stored there, and `read_uint32` reads them back as the word.
-/
def ShownAlike (env : Env) (gdb : Session) (address value : BitVec 32) : Prop :=
  ∃ digits mem,
    digits.length = 8
    ∧ (∀ s index, index + 8 < MAX_PACKET_SIZE
      → (writeUint32 env index value s).result
        = .ok ((), { s with packet := putBytes s.packet index (digits ++ [0]) }))
    ∧ memoryWriteWord env.host gdb.arm.mem address value = (0, mem)
    ∧ (∀ addressText sizeText, IsWord addressText address → IsWord sizeText 4
      → ∃ t, Answers env { gdb with arm := { gdb.arm with mem } }
          (readRequest addressText sizeText) digits t)
    ∧ ∀ request more index s, request.drop index = digits ++ more
      → (readUint32 env request index s).result = .ok (value, s)

/-- Registers and memory show the same bytes, for each word and each aligned address in memory. -/
theorem words_shownAlike (env : Env) {gdb : Session} (created : MainMemory env gdb.arm.mem)
    {address : BitVec 32} (aligned : address.toNat % 4 = 0)
    (inMemory : address.toNat < gdb.arm.mem.size) (value : BitVec 32)
    : ShownAlike env gdb address value := by
  have size := created.size
  have inside : address.toNat + 4 ≤ gdb.arm.mem.size := by omega
  have written := memoryWriteWord_eq env.host gdb.arm.mem address value
  rw [if_pos ⟨inMemory, aligned⟩] at written
  let mem : Memory :=
    { gdb.arm.mem with
      data := ByteStore.store (gdb.arm.mem.order env.host) gdb.arm.mem.data address.toNat value }
  refine ⟨wordText env value, mem, length_wordText env value, ?_, written, ?_, ?_⟩
  · intro s index fits
    have checked : ∀ i, InPacket (.write i) ↔ i < MAX_PACKET_SIZE := fun _ => Iff.rfl
    have met : Meets InPacket (fun _ => False)
        (fun _ t => t = { s with packet := putBytes s.packet index (wordText env value ++ [0]) })
        (writeUint32 env index value) s :=
      (meets_writeUint32_at checked env index value fits).mpr rfl
    obtain ⟨⟨⟩, t, result, rfl⟩ := met.ends
    exact result
  · intro addressText sizeText isAddress isSize
    let after : Session := { gdb with arm := { gdb.arm with mem } }
    have fits : address.toNat + 4 ≤ after.arm.mem.size := inside
    have answer := answers_readRequest env after (by decide : 4 ≤ 509) fits isAddress isSize
    have shown : hexText (memoryBytes after.arm.mem 4 address) = wordText env value :=
      hexText_store created inside value
    rw [shown] at answer
    exact ⟨_, answer⟩
  · intro request more index s held
    have met : Meets (fun _ => True) (fun _ => False) (fun a t => a = value ∧ t = s)
        (readUint32 env request index) s :=
      (meets_readUint32 env request index).mpr
        ⟨fun _ _ => ⟨trivial, fun _ => trivial⟩, uint32Value_of_drop env held, rfl⟩
    obtain ⟨a, t, result, rfl, rfl⟩ := met.ends
    exact result

/-- A first session on the memory of `main`, all zero. -/
def mainSession (env : Env) : Session :=
  gdbInitData (armCreate (memoryCreate 0x20000 (if env.bigEndianSimulator then 1 else 0) fun _ => 0))
    fun _ => 0

/-- A word at address 16 of a big-endian simulator on a little-endian host. -/
theorem wordAtSixteen_shownAlike
    : ShownAlike { Env.plain with bigEndianSimulator := true }
        (mainSession { Env.plain with bigEndianSimulator := true }) 16 0x12345678 :=
  words_shownAlike _ ⟨rfl, rfl⟩ (by decide) (by decide) _

end Armator.Gdb
