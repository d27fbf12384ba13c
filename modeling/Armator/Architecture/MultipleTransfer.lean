import Armator.Simulator.Core

/-! Load and store multiple as the architecture defines them: the register list, the words it
is transferred to or from, and the state afterwards.
-/

namespace Armator

/-- The listed registers in increasing number. -/
def registerList (ins : BitVec 32) : List Nat :=
  (List.range 16).filter fun ri => ins.getLsbD ri

/-- The registers of a list with consecutive word addresses, modulo 2^32. -/
def slots (address : BitVec 32) : List Nat → List (Nat × BitVec 32)
  | [] => []
  | ri :: rest => (ri, address) :: slots (address + 4) rest

/-- The number of bytes that `n` registers take. -/
def listBytes (n : Nat) : BitVec 32 :=
  BitVec.ofNat 32 (4 * n)

/-- The first address of `n` words in the modes IA, IB, DA and DB. -/
def transferStart (ins base : BitVec 32) (n : Nat) : BitVec 32 :=
  match ins.getLsbD 24, ins.getLsbD 23 with
  | false, true => base
  | true, true => base + 4
  | false, false => base - listBytes n + 4
  | true, false => base - listBytes n

/-- The base register after the transfer of `n` words, if it is written back. -/
def transferBase (ins base : BitVec 32) (n : Nat) : BitVec 32 :=
  if ins.getLsbD 23 then base + listBytes n else base - listBytes n

/-- The base register field. -/
def baseRegister (ins : BitVec 32) : BitVec 8 :=
  (ins.extractLsb' 16 4).setWidth 8

/-- A state with the given register values stored in their slots. -/
def storeSlots (host : Host) (p : ArmCore) (values : Nat → BitVec 32)
    (list : List (Nat × BitVec 32))
    : ArmCore :=
  { p with
    mem := { p.mem with
      data := ByteStore.storeAll (p.mem.order host) p.mem.data
        (list.map fun slot => (slot.2.toNat, values slot.1)) } }

/-- The word of a slot. -/
def slotWord (host : Host) (mem : Memory) (slot : Nat × BitVec 32) : BitVec 32 :=
  ByteStore.load (mem.order host) 32 mem.data slot.2.toNat

/-- A state with one register loaded from its slot: the pc takes the word without bit 0, which
goes to the T bit.
-/
def loadSlot (host : Host) (mem : Memory) (p : ArmCore) (slot : Nat × BitVec 32) : ArmCore :=
  let word := slotWord host mem slot
  if slot.1 = 15 then
    armWriteCpsr (armWriteRegister p 15 (word &&& ~~~1))
      (Bits.putBit (armReadCpsr p) CpsrBit.T (word.getLsbD 0))
  else armWriteRegister p (BitVec.ofNat 8 slot.1) word

/-- The slots of an instruction. -/
def transferSlots (p : ArmCore) (ins : BitVec 32) : List (Nat × BitVec 32) :=
  let list := registerList ins
  slots (transferStart ins (armReadRegister p (baseRegister ins)) list.length) list

/-- The state after a load or store multiple: the base is written back when bit 21 says so, the
stored values are those before the instruction.
-/
def multipleTransfer (host : Host) (p : ArmCore) (ins : BitVec 32) : ArmCore :=
  let rn := baseRegister ins
  let moved :=
    if ins.getLsbD 21 then
      armWriteRegister p rn
        (transferBase ins (armReadRegister p rn) (registerList ins).length)
    else p
  if ins.getLsbD 20 then (transferSlots p ins).foldl (loadSlot host p.mem) moved
  else
    storeSlots host moved (fun ri => armReadRegister p (BitVec.ofNat 8 ri))
      (transferSlots p ins)

theorem listBytes_succ (n : Nat) : listBytes (n + 1) = listBytes n + 4 := by
  rw [listBytes, listBytes, Nat.mul_add, BitVec.ofNat_add]
  rfl

/-- The slots of a longer list start with those of the shorter one, by induction on it. -/
theorem slots_append (address : BitVec 32) (first second : List Nat)
    : slots address (first ++ second)
      = slots address first ++ slots (address + listBytes first.length) second := by
  induction first generalizing address with
  | nil => simp [slots, listBytes]
  | cons ri rest ih =>
      have next : address + 4 + listBytes rest.length
          = address + listBytes (ri :: rest).length := by
        rw [List.length_cons, listBytes_succ]
        bv_omega
      rw [List.cons_append, slots, ih, next]
      rfl

/-- A slot lies a multiple of 4 bytes behind the first one, by induction on the list. -/
theorem mem_slots {address : BitVec 32} {list : List Nat} {slot : Nat × BitVec 32}
    (member : slot ∈ slots address list)
    : slot.1 ∈ list ∧ ∃ k < list.length, slot.2 = address + listBytes k := by
  induction list generalizing address with
  | nil => cases member
  | cons ri rest ih =>
      rcases List.mem_cons.mp member with rfl | later
      · refine ⟨List.mem_cons_self, 0, Nat.succ_pos _, ?_⟩
        simp [listBytes]
      · obtain ⟨listed, k, inside, place⟩ := ih later
        refine ⟨List.mem_cons_of_mem _ listed, k + 1, Nat.succ_lt_succ inside, ?_⟩
        rw [place, listBytes_succ]
        bv_omega

/-- The registers of slots are the list. -/
theorem slots_registers (address : BitVec 32) (list : List Nat)
    : (slots address list).map Prod.fst = list := by
  induction list generalizing address with
  | nil => rfl
  | cons ri rest ih => exact congrArg (ri :: ·) (ih _)

/-- Aligned slots of a list that does not go around the address space are apart.
Witness: induction on the list; a later slot differs from the first one by a multiple of 4.
-/
theorem slots_apart {address : BitVec 32} (aligned : address.toNat % 4 = 0) {list : List Nat}
    (short : list.length ≤ 2 ^ 30)
    : (slots address list).Pairwise fun first second =>
        ByteStore.Apart 32 first.2.toNat second.2.toNat := by
  induction list generalizing address with
  | nil => exact List.Pairwise.nil
  | cons ri rest ih =>
      rw [List.length_cons] at short
      refine List.pairwise_cons.mpr ⟨fun slot member => ?_, ih (by bv_omega) (by omega)⟩
      obtain ⟨-, k, inside, place⟩ := mem_slots member
      have behind : slot.2.toNat = (address.toNat + 4 * (k + 1)) % 2 ^ 32 := by
        rw [place, listBytes, BitVec.toNat_add, BitVec.toNat_add, BitVec.toNat_ofNat]
        have four : (4 : BitVec 32).toNat = 4 := rfl
        omega
      have bound := address.isLt
      simp only [ByteStore.Apart, behind, Nat.reduceDiv]
      omega

section Storing

variable {host : Host} {p : ArmCore} {values : Nat → BitVec 32} {list : List (Nat × BitVec 32)}

/-- A stored slot holds its register's value, if the slots are apart. -/
theorem slotWord_storeSlots
    (apart : list.Pairwise fun first second => ByteStore.Apart 32 first.2.toNat second.2.toNat)
    {slot : Nat × BitVec 32} (member : slot ∈ list)
    : slotWord host (storeSlots host p values list).mem slot = values slot.1 := by
  let writes := list.map fun slot => (slot.2.toNat, values slot.1)
  have written : (slot.2.toNat, values slot.1) ∈ writes :=
    List.mem_map.mpr ⟨slot, member, rfl⟩
  have separate : writes.Pairwise fun first second => ByteStore.Apart 32 first.1 second.1 :=
    List.pairwise_map.mpr apart
  have data : (storeSlots host p values list).mem.data
      = ByteStore.storeAll (p.mem.order host) p.mem.data writes := rfl
  have order : (storeSlots host p values list).mem.order host = p.mem.order host := rfl
  rw [slotWord, order, data, ByteStore.load_storeAll (by decide) writes separate written]

/-- Bytes outside the slots keep their value. -/
theorem storeSlots_outside {j : Nat}
    (outside : ∀ slot ∈ list, ¬ (slot.2.toNat ≤ j ∧ j < slot.2.toNat + 4))
    : (storeSlots host p values list).mem.data j = p.mem.data j := by
  refine ByteStore.storeAll_outside _ fun write member => ?_
  obtain ⟨slot, inList, rfl⟩ := List.mem_map.mp member
  exact outside slot inList

end Storing

end Armator
