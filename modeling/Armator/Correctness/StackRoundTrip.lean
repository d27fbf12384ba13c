import Armator.Correctness.MultipleLoops

/-! A store multiple and a load multiple in the opposite mode undo each other. -/

namespace Armator

open ByteStore

/-- A store multiple and a load multiple with write-back, the same base and the same list
without r15, in opposite modes: DB and IA, IA and DB, IB and DA, or DA and IB.
-/
structure OppositeMultiples (stm ldm : BitVec 32) : Prop where
  stores : stm.getLsbD 20 = false
  loads : ldm.getLsbD 20 = true
  stmMoves : stm.getLsbD 21 = true
  ldmMoves : ldm.getLsbD 21 = true
  before : ldm.getLsbD 24 = !stm.getLsbD 24
  up : ldm.getLsbD 23 = !stm.getLsbD 23
  base : baseRegister ldm = baseRegister stm
  list : loopList ldm = loopList stm
  stmNoPc : stm.getLsbD 15 = false
  ldmNoPc : ldm.getLsbD 15 = false

/-- `q` is `p` with other values in the listed registers. -/
structure ListedChanged (list : List Nat) (p q : ArmCore) : Prop where
  memory : q.mem = p.mem
  cpsr : armReadCpsr q = armReadCpsr p
  others : ∀ reg, reg.toNat ∉ list → readRegister q.reg reg = readRegister p.reg reg

/-- From the moved base, the opposite mode starts at the same address and moves back.
Witness: the four modes.
-/
theorem OppositeMultiples.window {stm ldm : BitVec 32} (opposite : OppositeMultiples stm ldm)
    (base : BitVec 32) (n : Nat)
    : transferStart ldm (transferBase stm base n) n = transferStart stm base n
      ∧ transferBase ldm (transferBase stm base n) n = base := by
  unfold transferStart transferBase
  rw [opposite.before, opposite.up]
  generalize listBytes n = bytes
  cases stm.getLsbD 24 <;> cases stm.getLsbD 23 <;>
    simp only [Bool.not_true, Bool.not_false, Bool.false_eq_true, if_true, if_false] <;>
    constructor <;>
    bv_omega

/-- Loading slots whose words are given by their registers changes these registers only.
Witness: induction on the slots; a later load of the same register gives the same value.
-/
theorem foldl_loadSlot {host : Host} {mem : Memory} {values : BitVec 8 → BitVec 32}
    (list : List (Nat × BitVec 32)) (low : ∀ slot ∈ list, slot.1 < 15)
    (words : ∀ slot ∈ list, slotWord host mem slot = values (BitVec.ofNat 8 slot.1))
    (p : ArmCore)
    : let q := list.foldl (loadSlot host mem) p
      q.mem = p.mem ∧ armReadCpsr q = armReadCpsr p
      ∧ ∀ reg,
          readRegister q.reg reg
            = if reg.toNat ∈ list.map Prod.fst then values reg else readRegister p.reg reg := by
  induction list generalizing p with
  | nil => exact ⟨rfl, rfl, fun reg => rfl⟩
  | cons slot rest ih =>
      have slotLow := low slot List.mem_cons_self
      have loaded : loadSlot host mem p slot
          = armWriteRegister p (BitVec.ofNat 8 slot.1) (values (BitVec.ofNat 8 slot.1)) := by
        rw [← words slot List.mem_cons_self]
        exact if_neg (Nat.ne_of_lt slotLow)
      obtain ⟨memory, cpsr, registers⟩ := ih
        (fun later member => low later (List.mem_cons_of_mem _ member))
        (fun later member => words later (List.mem_cons_of_mem _ member))
        (loadSlot host mem p slot)
      rw [loaded] at memory cpsr registers
      rw [List.foldl_cons, loaded]
      refine ⟨memory, cpsr.trans (armReadCpsr_armWriteRegister _ _ _), fun reg => ?_⟩
      rw [registers reg, List.map_cons]
      by_cases later : reg.toNat ∈ rest.map Prod.fst
      · rw [if_pos later, if_pos (List.mem_cons_of_mem _ later)]
      · rw [if_neg later, armWriteRegister_reg, readRegister_writeRegister]
        by_cases here : reg.toNat = slot.1
        · have same : BitVec.ofNat 8 slot.1 = reg :=
            BitVec.eq_of_toNat_eq ((toNat_ofNat_register slotLow).trans here.symm)
          rw [if_pos ⟨same, by omega⟩, if_pos (here ▸ List.mem_cons_self), same]
        · have other : ¬ (BitVec.ofNat 8 slot.1 = reg ∧ reg.toNat < 16) := by
            rintro ⟨same, -⟩
            exact here (same ▸ toNat_ofNat_register slotLow)
          rw [if_neg other, if_neg]
          rw [List.mem_cons, not_or]
          exact ⟨here, later⟩

/-- What the round trip leaves: the registers and the CPSR of the first state, and its memory
outside the transferred words.
-/
structure Restored (p q : ArmCore) (list : List (Nat × BitVec 32)) : Prop where
  registers : ∀ reg, readRegister q.reg reg = readRegister p.reg reg
  cpsr : armReadCpsr q = armReadCpsr p
  memory :
    ∀ j,
      (∀ slot ∈ list, ¬ (slot.2.toNat ≤ j ∧ j < slot.2.toNat + 4))
      → q.mem.data j = p.mem.data j

/-- The first slot of an aligned base is aligned. -/
theorem transferStart_aligned (ins : BitVec 32) {base : BitVec 32} (aligned : base.toNat % 4 = 0)
    (n : Nat)
    : (transferStart ins base n).toNat % 4 = 0 := by
  have bytes : (listBytes n).toNat % 4 = 0 := by
    rw [listBytes, BitVec.toNat_ofNat]
    omega
  unfold transferStart
  split <;> bv_omega

/-- Slots inside memory that start at an aligned address can be accessed. -/
theorem accessible_of_aligned {mem : Memory} {start : BitVec 32} {list : List Nat}
    (aligned : start.toNat % 4 = 0)
    (inside : ∀ slot ∈ slots start list, slot.2.toNat < mem.size)
    : ∀ slot ∈ slots start list, mem.Accessible 4 slot.2 := by
  intro slot member
  obtain ⟨-, k, -, place⟩ := mem_slots member
  refine ⟨inside slot member, ?_⟩
  rw [place, listBytes, BitVec.toNat_add, BitVec.toNat_ofNat]
  omega

/-- Storing registers with write-back, changing them and loading them in the opposite mode
restores everything but the words stored. Witness: the store puts each register in its slot,
the load starts at the same address, and the slots are apart.
-/
theorem armLoadStoreMultiple_roundTrip (host : Host) (p changed : ArmCore)
    (stm ldm : BitVec 32) (opposite : OppositeMultiples stm ldm)
    (stmPasses : conditionPassed (armReadCpsr p) stm)
    (ldmPasses : conditionPassed (armReadCpsr p) ldm)
    (notPc : baseRegister stm ≠ 15) (unlisted : (baseRegister stm).toNat ∉ loopList stm)
    (aligned : (armReadRegister p (baseRegister stm)).toNat % 4 = 0)
    (inside : ∀ slot ∈ transferSlots p stm, slot.2.toNat < p.mem.size)
    (change : ListedChanged (loopList stm) (armLoadStoreMultiple host p stm).2 changed)
    : Restored p (armLoadStoreMultiple host changed ldm).2 (transferSlots p stm) := by
  have list := registerList_of_noPc opposite.stmNoPc
  have sameSlots : transferSlots p stm = loopSlots p stm := by
    rw [transferSlots, loopSlots, list]
  rw [sameSlots] at inside ⊢
  -- the slots are aligned, so the accesses succeed and do not overlap
  have startAligned := transferStart_aligned stm aligned (loopList stm).length
  have short := length_loopList_le stm
  have apart : (loopSlots p stm).Pairwise fun first second =>
      Apart 32 first.2.toNat second.2.toNat :=
    slots_apart startAligned (by omega)
  have accessible : ∀ slot ∈ loopSlots p stm, p.mem.Accessible 4 slot.2 :=
    accessible_of_aligned startAligned inside
  -- the store
  have stored : armLoadStoreMultiple host p stm = _ :=
    armLoadStoreMultiple_store stmPasses opposite.stores accessible
  rw [stored] at change
  -- the load starts where the store did
  have base : armReadRegister changed (baseRegister ldm)
      = transferBase stm (armReadRegister p (baseRegister stm)) (loopList stm).length := by
    rw [opposite.base, armReadRegister_of_ne _ _ notPc, change.others _ unlisted]
    exact readRegister_movedBase_base p opposite.stmMoves
  have window := opposite.window (armReadRegister p (baseRegister stm)) (loopList stm).length
  have loadSlots : loopSlots changed ldm = loopSlots p stm := by
    rw [loopSlots, base, opposite.list, window.1, loopSlots]
  have size : changed.mem.size = p.mem.size := by
    rw [change.memory, ← movedBase_mem p stm]
    rfl
  have loadAccessible : ∀ slot ∈ loopSlots changed ldm, changed.mem.Accessible 4 slot.2 := by
    rw [loadSlots]
    intro slot member
    obtain ⟨inMemory, multiple⟩ := accessible slot member
    exact ⟨size ▸ inMemory, multiple⟩
  have loadPasses : conditionPassed (armReadCpsr changed) ldm := by
    rw [change.cpsr]
    exact (armReadCpsr_movedBase p stm).symm ▸ ldmPasses
  have loaded : (armLoadStoreMultiple host changed ldm).2 = _ :=
    armLoadStoreMultiple_load loadPasses opposite.loads opposite.ldmNoPc loadAccessible
  -- each slot holds the value its register had
  have low : ∀ slot ∈ loopSlots p stm, slot.1 < 15 := fun slot member =>
    (mem_loopList.mp (mem_slots member).1).1
  have words : ∀ slot ∈ loopSlots p stm,
      slotWord host changed.mem slot = readRegister p.reg (BitVec.ofNat 8 slot.1) := by
    intro slot member
    have notBase : slot.1 ≠ (baseRegister stm).toNat := by
      intro same
      exact unlisted (same ▸ (mem_slots member).1)
    rw [change.memory, slotWord_storeSlots apart member,
      armReadRegister_movedBase p (low slot member) notBase]
  obtain ⟨memory, cpsr, registers⟩ :=
    foldl_loadSlot (loopSlots p stm) low words (movedBase changed ldm)
  rw [loaded, loadSlots]
  refine ⟨fun reg => ?_, ?_, fun j outside => ?_⟩
  · rw [registers reg, loopSlots, slots_registers]
    by_cases listed : reg.toNat ∈ loopList stm
    · rw [if_pos listed]
    · rw [if_neg listed]
      by_cases isBase : reg = baseRegister ldm
      · rw [isBase, readRegister_movedBase_base changed opposite.ldmMoves, base, opposite.list,
          window.2, opposite.base, armReadRegister_of_ne _ _ notPc]
      · rw [readRegister_movedBase changed ldm isBase, change.others reg listed]
        exact readRegister_movedBase p stm (opposite.base ▸ isBase)
  · rw [cpsr, armReadCpsr_movedBase, change.cpsr]
    exact armReadCpsr_movedBase p stm
  · rw [memory, movedBase_mem, change.memory]
    refine (storeSlots_outside outside).trans ?_
    rw [movedBase_mem]

/-- A fresh processor with 64 bytes of memory and the stack pointer at their end. -/
def freshStack : ArmCore :=
  armWriteRegister (armCreate (memoryCreate 64 0 fun _ => 0)) 13 64

/-- STMDB sp!, {r0, r1}, new values in r0 and r1, and LDMIA sp!, {r0, r1}. -/
theorem stmdb_ldmia
    : let stored := (armLoadStoreMultiple (.plain .little) freshStack 0xE92D0003).2
      let changed := armWriteRegister (armWriteRegister stored 0 7) 1 8
      Restored freshStack (armLoadStoreMultiple (.plain .little) changed 0xE8BD0003).2
        (transferSlots freshStack 0xE92D0003) := by
  intro stored changed
  have changesList : ListedChanged (loopList 0xE92D0003) stored changed := by
    refine ⟨rfl, by simp [changed], fun reg unlisted => ?_⟩
    have not0 : (0 : BitVec 8) ≠ reg := by
      rintro rfl
      exact unlisted (by decide)
    have not1 : (1 : BitVec 8) ≠ reg := by
      rintro rfl
      exact unlisted (by decide)
    simp only [changed, armWriteRegister_reg, readRegister_writeRegister, not0, not1, false_and,
      if_false]
  exact armLoadStoreMultiple_roundTrip (.plain .little) freshStack changed 0xE92D0003 0xE8BD0003
    (by constructor <;> decide) (by decide +kernel) (by decide +kernel) (by decide) (by decide)
    (by decide +kernel) (by decide +kernel) changesList

end Armator
