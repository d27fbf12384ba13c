import Armator.Correctness.MultipleLoops
import Armator.Correctness.Dispatch

/-! When load and store multiple do what the architecture says. -/

namespace Armator

open ByteStore

/-- The writes that store register values in slots. -/
def slotWrites (values : Nat → BitVec 32) (list : List (Nat × BitVec 32))
    : List (Nat × BitVec 32) :=
  list.map fun slot => (slot.2.toNat, values slot.1)

/-- Stored lists differ in their bytes only. -/
theorem storeSlots_eq_iff {host : Host} {p : ArmCore} {values values' : Nat → BitVec 32}
    {list list' : List (Nat × BitVec 32)}
    : storeSlots host p values list = storeSlots host p values' list'
      ↔ storeAll (p.mem.order host) p.mem.data (slotWrites values list)
        = storeAll (p.mem.order host) p.mem.data (slotWrites values' list') := by
  simp only [storeSlots, ArmCore.mk.injEq, Memory.mk.injEq, true_and]
  exact Iff.rfl

/-- Every word behind the first one is a slot of a long enough list, by induction on it. -/
theorem exists_slot (address : BitVec 32) {list : List Nat} {k : Nat}
    (inside : k < list.length)
    : ∃ ri, (ri, address + listBytes k) ∈ slots address list := by
  induction list generalizing address k with
  | nil => cases inside
  | cons ri rest ih =>
      cases k with
      | zero =>
          refine ⟨ri, ?_⟩
          simp [slots, listBytes]
      | succ k =>
          obtain ⟨later, member⟩ := ih (address + 4) (Nat.lt_of_succ_lt_succ inside)
          have place : address + listBytes (k + 1) = address + 4 + listBytes k := by
            rw [listBytes_succ]
            bv_omega
          exact ⟨later, place ▸ List.mem_cons_of_mem _ member⟩

/-- Storing a list without its last register leaves the same bytes iff the memory already holds
that register's value. Witness: the earlier stores are apart from the last word.
-/
theorem storeAll_unfinished_iff {order : ByteOrder} (values : Nat → BitVec 32) (list : List Nat)
    (last : Nat) {address : BitVec 32} {bytes : Nat → BitVec 8}
    (apart : (slots address (list ++ [last])).Pairwise fun first second =>
      Apart 32 first.2.toNat second.2.toNat)
    : storeAll order bytes (slotWrites values (slots address list))
        = storeAll order bytes (slotWrites values (slots address (list ++ [last])))
      ↔ load order 32 bytes (address + listBytes list.length).toNat = values last := by
  rw [slots_append] at apart ⊢
  obtain ⟨-, -, separate⟩ := List.pairwise_append.mp apart
  have kept : load order 32 (storeAll order bytes (slotWrites values (slots address list)))
        (address + listBytes list.length).toNat
      = load order 32 bytes (address + listBytes list.length).toNat := by
    refine load_storeAll_apart (by decide) _ fun write member => ?_
    obtain ⟨slot, listed, rfl⟩ := List.mem_map.mp member
    exact separate slot listed _ List.mem_cons_self
  rw [slotWrites, slotWrites, List.map_append, storeAll_append, ← kept,
    ← store_eq_self_iff (by decide)]
  exact eq_comm

/-- Storing a list one word further on, without its last register, leaves the bytes that storing
all of it leaves iff every value is the word at the first slot.
Witness: induction on the list; only the full list writes the first slot, and both write the
first register next to the word it then holds.
-/
theorem storeAll_further_iff {order : ByteOrder} (values : Nat → BitVec 32) (list : List Nat)
    (last : Nat) {address : BitVec 32} {bytes : Nat → BitVec 8}
    (apart : (slots address (list ++ [last])).Pairwise fun first second =>
      Apart 32 first.2.toNat second.2.toNat)
    : storeAll order bytes (slotWrites values (slots (address + 4) list))
        = storeAll order bytes (slotWrites values (slots address (list ++ [last])))
      ↔ ∀ ri ∈ list ++ [last], values ri = load order 32 bytes address.toNat := by
  induction list generalizing address bytes with
  | nil =>
      have single : store order bytes address.toNat (values last) = bytes
          ↔ load order 32 bytes address.toNat = values last :=
        store_eq_self_iff (by decide) _ _
      simp only [List.nil_append, List.mem_singleton, forall_eq]
      exact ⟨fun same => (single.mp same.symm).symm, fun same => (single.mpr same.symm).symm⟩
  | cons ri rest ih =>
      obtain ⟨headApart, restApart⟩ := List.pairwise_cons.mp apart
      let next := store order bytes (address + 4).toNat (values ri)
      let further := slotWrites values (slots (address + 4) (ri :: rest))
      let full := slotWrites values (slots (address + 4) (rest ++ [last]))
      have overwritten : storeAll order next full = storeAll order bytes full := by
        obtain ⟨r, others, split⟩ : ∃ r others, rest ++ [last] = r :: others :=
          List.exists_cons_of_ne_nil (by simp)
        simp only [full, next, split, slots, slotWrites, List.map_cons, storeAll_cons, store_store]
      -- nothing but the full list's first write touches the first slot
      have furtherKeeps : load order 32 (storeAll order bytes further) address.toNat
          = load order 32 bytes address.toNat := by
        refine load_storeAll_apart (by decide) _ fun write member => ?_
        obtain ⟨slot, listed, rfl⟩ := List.mem_map.mp member
        obtain ⟨-, k, inside, place⟩ := mem_slots listed
        have longer : k < (rest ++ [last]).length := by simpa using inside
        obtain ⟨_, same⟩ := exists_slot (address + 4) longer
        exact place ▸ (headApart _ same).symm
      have fullKeeps (bytes : Nat → BitVec 8)
          : load order 32 (storeAll order bytes full) address.toNat
            = load order 32 bytes address.toNat := by
        refine load_storeAll_apart (by decide) _ fun write member => ?_
        obtain ⟨slot, listed, rfl⟩ := List.mem_map.mp member
        exact (headApart slot listed).symm
      have written : load order 32 next (address + 4).toNat = values ri :=
        load_store (by decide) _ _
      have later : storeAll order bytes further = storeAll order next full
          ↔ ∀ r ∈ rest ++ [last], values r = values ri := by
        rw [← written]
        exact ih restApart
      have first : store order bytes address.toNat (values ri) = bytes
          ↔ load order 32 bytes address.toNat = values ri :=
        store_eq_self_iff (by decide) _ _
      change storeAll order bytes further
          = storeAll order (store order bytes address.toNat (values ri)) full ↔ _
      constructor
      · intro same r member
        have value : load order 32 bytes address.toNat = values ri := by
          rw [← furtherKeeps, same, fullKeeps, load_store (by decide)]
        rw [first.mpr value, ← overwritten] at same
        rw [value]
        rcases List.mem_cons.mp member with rfl | inRest
        · rfl
        · exact later.mp same r inRest
      · intro all
        have value := all ri List.mem_cons_self
        rw [first.mpr value.symm, ← overwritten]
        exact later.mpr fun r member => (all r (List.mem_cons_of_mem _ member)).trans value.symm

/-- A stored list depends on the values of its own registers. -/
theorem storeSlots_congr {host : Host} {p : ArmCore} {values values' : Nat → BitVec 32}
    {list : List (Nat × BitVec 32)} (same : ∀ slot ∈ list, values slot.1 = values' slot.1)
    : storeSlots host p values list = storeSlots host p values' list := by
  have writes : slotWrites values list = slotWrites values' list :=
    List.map_congr_left fun slot member => by rw [same slot member]
  rw [storeSlots_eq_iff, writes]

/-- Accessible slots are apart: their addresses are aligned. -/
theorem slots_apart_of_accessible {mem : Memory} {address : BitVec 32} {list : List Nat}
    (short : list.length ≤ 2 ^ 30)
    (accessible : ∀ slot ∈ slots address list, mem.Accessible 4 slot.2)
    : (slots address list).Pairwise fun first second =>
        Apart 32 first.2.toNat second.2.toNat := by
  cases list with
  | nil => exact List.Pairwise.nil
  | cons ri rest => exact slots_apart (accessible _ List.mem_cons_self).2 short

/-- Without one register the modes going down start one word further on. -/
theorem transferStart_succ (ins base : BitVec 32) (n : Nat)
    : transferStart ins base n
      = if ins.getLsbD 23 then transferStart ins base (n + 1)
        else transferStart ins base (n + 1) + 4 := by
  unfold transferStart
  rw [listBytes_succ]
  cases ins.getLsbD 24 <;> cases ins.getLsbD 23 <;>
    simp only [Bool.false_eq_true, if_true, if_false] <;>
    bv_omega

/-- Without one register the base moves to another place. -/
theorem transferBase_succ_ne (ins base : BitVec 32) (n : Nat)
    : transferBase ins base n ≠ transferBase ins base (n + 1) := by
  unfold transferBase
  rw [listBytes_succ]
  split <;> bv_omega

/-- A nonempty list moves the base. -/
theorem transferBase_ne (ins base : BitVec 32) {n : Nat} (positive : 0 < n) (short : n ≤ 16)
    : transferBase ins base n ≠ base := by
  have bytes : (listBytes n).toNat = 4 * n := by
    rw [listBytes, BitVec.toNat_ofNat]
    omega
  unfold transferBase
  split <;> bv_omega

theorem length_registerList_le (ins : BitVec 32) : (registerList ins).length ≤ 16 := by
  have bound := List.length_filter_le (fun ri => ins.getLsbD ri) (List.range 16)
  rwa [List.length_range] at bound

section Store

variable {host : Host} {p : ArmCore} {ins : BitVec 32}
  (accessible : ∀ slot ∈ transferSlots p ins, p.mem.Accessible 4 slot.2)

include accessible

theorem transferSlots_apart
    : (transferSlots p ins).Pairwise fun first second =>
        Apart 32 first.2.toNat second.2.toNat :=
  slots_apart_of_accessible (by have := length_registerList_le ins; omega) accessible

/-- The loops stay in the words that the list is transferred to or from. -/
theorem loopSlots_accessible : ∀ slot ∈ loopSlots p ins, p.mem.Accessible 4 slot.2 := by
  intro slot member
  cases pc : ins.getLsbD 15 with
  | false =>
      rw [transferSlots, registerList_of_noPc pc] at accessible
      exact accessible slot member
  | true =>
      obtain ⟨-, k, inside, place⟩ := mem_slots member
      rw [transferStart_succ] at place
      rw [transferSlots, registerList_of_pc pc, List.length_append, List.length_singleton]
        at accessible
      have reached {j : Nat} (bound : j < (loopList ins ++ [15]).length) :=
        exists_slot (transferStart ins (armReadRegister p (baseRegister ins))
          ((loopList ins).length + 1)) bound
      rw [List.length_append, List.length_singleton] at reached
      rw [place]
      split
      · obtain ⟨ri, listed⟩ := reached (Nat.lt_succ_of_lt inside)
        exact accessible _ listed
      · obtain ⟨ri, listed⟩ := reached (Nat.succ_lt_succ inside)
        have next := accessible _ listed
        rwa [listBytes_succ, BitVec.add_comm _ 4, ← BitVec.add_assoc] at next

end Store

/-- The stores that are exact. Without r15, a base that moves is not stored. With r15, which the
loops leave out, the base does not move and the memory already holds what they fail to write:
going up, the value of r15 in the last word; going down, where they start one word too far, one
value for all registers in the first word.
-/
def MultipleExact (host : Host) (p : ArmCore) (ins : BitVec 32) : Prop :=
  let list := registerList ins
  let start := transferStart ins (armReadRegister p (baseRegister ins)) list.length
  ins.getLsbD 20 = false
  ∧ if ins.getLsbD 15 then
      ins.getLsbD 21 = false
      ∧ if ins.getLsbD 23 then
          slotWord host p.mem (15, start + listBytes (list.length - 1)) = armReadRegister p 15
        else
          ∀ ri ∈ list,
            armReadRegister p (BitVec.ofNat 8 ri) = slotWord host p.mem (ri, start)
    else ins.getLsbD 21 = true → (baseRegister ins).toNat ∉ list

section Exact

variable {host : Host} {p : ArmCore} {ins : BitVec 32}
  (passes : conditionPassed (armReadCpsr p) ins) (store : ins.getLsbD 20 = false)
  (accessible : ∀ slot ∈ transferSlots p ins, p.mem.Accessible 4 slot.2)

include passes store accessible

/-- Without r15 a store is exact iff it does not store a base that moves.
Witness: the loops see the new base; as the lowest register it is the first word stored.
-/
theorem store_noPc_iff (noPc : ins.getLsbD 15 = false)
    (lowest : ins.getLsbD 21 = true
      → (baseRegister ins).toNat ∉ registerList ins
        ∨ (registerList ins).head? = some (baseRegister ins).toNat)
    : armLoadStoreMultiple host p ins = (0, multipleTransfer host p ins)
      ↔ (ins.getLsbD 21 = true → (baseRegister ins).toNat ∉ registerList ins) := by
  have apart := transferSlots_apart accessible
  have list := registerList_of_noPc noPc
  have sameSlots : transferSlots p ins = loopSlots p ins := by
    rw [transferSlots, loopSlots, list]
  have reference : multipleTransfer host p ins
      = storeSlots host (movedBase p ins) (fun ri => armReadRegister p (BitVec.ofNat 8 ri))
          (loopSlots p ins) := by
    simp only [multipleTransfer, store, Bool.false_eq_true, if_false, sameSlots, list]
    rfl
  rw [armLoadStoreMultiple_store passes store (loopSlots_accessible accessible), reference,
    Prod.mk.injEq, eq_self, true_and]
  constructor
  · intro same moves listed
    rw [list] at listed lowest
    rw [sameSlots] at apart
    have head := (lowest moves).resolve_left fun absent => absent listed
    obtain ⟨rest, split⟩ : ∃ rest, loopList ins = (baseRegister ins).toNat :: rest :=
      ⟨_, (List.cons_head?_tail head).symm⟩
    have first : ((baseRegister ins).toNat, transferStart ins
        (armReadRegister p (baseRegister ins)) (loopList ins).length) ∈ loopSlots p ins := by
      rw [loopSlots, split]
      exact List.mem_cons_self
    have words := congrArg (fun q => slotWord host q.mem
      ((baseRegister ins).toNat, transferStart ins (armReadRegister p (baseRegister ins))
        (loopList ins).length)) same
    have low := (mem_loopList.mp listed).1
    have number : BitVec.ofNat 8 (baseRegister ins).toNat = baseRegister ins :=
      BitVec.eq_of_toNat_eq (toNat_ofNat_register low)
    have notPc := ofNat_register_ne_pc low
    simp only [slotWord_storeSlots apart first, number] at words
    rw [number] at notPc
    rw [armReadRegister_of_ne _ _ notPc, readRegister_movedBase_base p moves] at words
    have positive : 0 < (loopList ins).length := by
      rw [split]
      exact Nat.succ_pos _
    have short := length_loopList_le ins
    exact transferBase_ne ins _ positive (by omega) words
  · intro unlisted
    refine storeSlots_congr fun slot member => ?_
    cases moves : ins.getLsbD 21 with
    | false => rw [movedBase, moves, if_neg Bool.false_ne_true]
    | true =>
        have listed := (mem_slots member).1
        have low := (mem_loopList.mp listed).1
        have notBase : slot.1 ≠ (baseRegister ins).toNat := by
          intro same
          exact unlisted moves (list ▸ same ▸ listed)
        rw [armReadRegister_movedBase p low notBase,
          armReadRegister_of_ne _ _ (ofNat_register_ne_pc low)]

/-- With r15 a store is exact iff the base stays and the missing word changes nothing.
Witness: the moved base is one word short; otherwise the loops leave out the last word or, going
down, store every register one word further on.
-/
theorem store_pc_iff (pc : ins.getLsbD 15 = true)
    : armLoadStoreMultiple host p ins = (0, multipleTransfer host p ins)
      ↔ ins.getLsbD 21 = false
        ∧ if ins.getLsbD 23 then
            slotWord host p.mem (15, transferStart ins (armReadRegister p (baseRegister ins))
                (registerList ins).length + listBytes ((registerList ins).length - 1))
              = armReadRegister p 15
          else
            ∀ ri ∈ registerList ins,
              armReadRegister p (BitVec.ofNat 8 ri)
                = slotWord host p.mem (ri, transferStart ins
                    (armReadRegister p (baseRegister ins)) (registerList ins).length) := by
  have apart := transferSlots_apart accessible
  have list := registerList_of_pc pc
  have length : (registerList ins).length = (loopList ins).length + 1 := by
    rw [list, List.length_append, List.length_singleton]
  rw [armLoadStoreMultiple_store passes store (loopSlots_accessible accessible), Prod.mk.injEq,
    eq_self, true_and]
  cases moves : ins.getLsbD 21 with
  | true =>
      refine iff_of_false (fun same => ?_) fun right => Bool.noConfusion right.1
      have bases := congrArg (fun q => readRegister q.reg (baseRegister ins)) same
      simp only [multipleTransfer, store, moves, if_true, Bool.false_eq_true, if_false,
        storeSlots, armWriteRegister_reg, readRegister_writeRegister, toNat_baseRegister_lt,
        and_self, readRegister_movedBase_base p moves, length] at bases
      exact transferBase_succ_ne ins _ _ bases
  | false =>
      have still : movedBase p ins = p := by
        rw [movedBase, moves, if_neg Bool.false_ne_true]
      have reference : multipleTransfer host p ins
          = storeSlots host p (fun ri => armReadRegister p (BitVec.ofNat 8 ri))
              (transferSlots p ins) := by
        simp only [multipleTransfer, store, moves, Bool.false_eq_true, if_false]
      rw [still, reference, storeSlots_eq_iff, eq_self, true_and, loopSlots, transferStart_succ,
        ← length]
      rw [transferSlots] at apart ⊢
      generalize transferStart ins (armReadRegister p (baseRegister ins))
        (registerList ins).length = start at apart ⊢
      rw [length, Nat.add_sub_cancel]
      rw [list] at apart ⊢
      cases ins.getLsbD 23 with
      | true =>
          simp only [if_true]
          exact storeAll_unfinished_iff _ _ _ apart
      | false =>
          simp only [Bool.false_eq_true, if_false]
          exact storeAll_further_iff _ _ _ apart

end Exact

/-- A load or store multiple of accessible words, whose base is not listed when it moves unless
it is stored first, returns 0 in the architecture's state for exactly the stores above.
Witness: a load reports a wrong end address; the stores with and without r15.
-/
theorem armLoadStoreMultiple_exact_iff (host : Host) (p : ArmCore) (ins : BitVec 32)
    (passes : conditionPassed (armReadCpsr p) ins)
    (accessible : ∀ slot ∈ transferSlots p ins, p.mem.Accessible 4 slot.2)
    (admissible : ins.getLsbD 21 = true
      → (baseRegister ins).toNat ∉ registerList ins
        ∨ ins.getLsbD 20 = false
          ∧ (registerList ins).head? = some (baseRegister ins).toNat)
    : armLoadStoreMultiple host p ins = (0, multipleTransfer host p ins)
      ↔ MultipleExact host p ins := by
  unfold MultipleExact
  cases direction : ins.getLsbD 20 with
  | true =>
      refine iff_of_false (fun same => ?_) fun right => Bool.noConfusion right.1
      have result : (armLoadStoreMultiple host p ins).1 = 1 :=
        armLoadStoreMultiple_load_result passes direction
      rw [same] at result
      exact Int.zero_ne_one result
  | false =>
      rw [eq_self, true_and]
      cases pc : ins.getLsbD 15 with
      | true =>
          simp only [if_true]
          exact store_pc_iff passes direction accessible pc
      | false =>
          simp only [Bool.false_eq_true, if_false]
          exact store_noPc_iff passes direction accessible pc fun moves =>
            (admissible moves).imp_right And.right

/-- A processor with values in r0, r2 and lr, and r1 behind its word. -/
def filledRegisters (ins : BitVec 32) : ArmCore :=
  [(0, 0x11223344), (1, 4), (2, 0xFFFFFFFE), (14, 0x8000)].foldl
    (fun p (assigned : BitVec 8 × BitVec 32) => armWriteRegister p assigned.1 assigned.2)
    (oneWord 64 ins)

/-- STMIA r1!, {r0, r2, lr}. -/
theorem stmia_exact
    : armLoadStoreMultiple (.plain .little) (filledRegisters 0xE8A14005) 0xE8A14005
      = (0, multipleTransfer (.plain .little) (filledRegisters 0xE8A14005) 0xE8A14005) :=
  (armLoadStoreMultiple_exact_iff (.plain .little) (filledRegisters 0xE8A14005) 0xE8A14005
    (by decide +kernel) (by decide +kernel) (fun _ => .inl (by decide))).mpr
    ⟨by decide, fun _ => by decide⟩

/-- LDMIA r1, {r0} returns 1. -/
theorem ldmia_returnsError
    : conditionPassed (armReadCpsr (oneWord 64 0xE8910001)) 0xE8910001
      ∧ (∀ slot ∈ transferSlots (oneWord 64 0xE8910001) 0xE8910001,
          (oneWord 64 0xE8910001).mem.Accessible 4 slot.2)
      ∧ (baseRegister 0xE8910001).toNat ∉ registerList 0xE8910001
      ∧ armLoadStoreMultiple (.plain .little) (oneWord 64 0xE8910001) 0xE8910001
        ≠ (0, multipleTransfer (.plain .little) (oneWord 64 0xE8910001) 0xE8910001) := by
  refine ⟨by decide +kernel, by decide +kernel, by decide, fun same => ?_⟩
  exact absurd (congrArg Prod.fst same) (by decide +kernel)

end Armator
