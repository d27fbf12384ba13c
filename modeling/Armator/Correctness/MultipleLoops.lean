import Armator.Architecture.MultipleTransfer
import Armator.Simulator.LoadStore

/-! The loops of `arm_load_store_multiple` as transfers of a register list. -/

namespace Armator

open ByteStore

/-- The listed registers that the loops go through: r0 to r14. -/
def loopList (ins : BitVec 32) : List Nat :=
  (List.range 15).filter fun ri => ins.getLsbD ri

/-- The loops leave out r15. -/
theorem registerList_eq (ins : BitVec 32)
    : registerList ins = loopList ins ++ if ins.getLsbD 15 then [15] else [] := by
  rw [registerList, loopList, List.range_succ, List.filter_append]
  congr 1
  rw [List.filter_cons]
  cases ins.getLsbD 15 <;> rfl

theorem registerList_of_noPc {ins : BitVec 32} (noPc : ins.getLsbD 15 = false)
    : registerList ins = loopList ins := by
  rw [registerList_eq, noPc, if_neg Bool.false_ne_true, List.append_nil]

theorem registerList_of_pc {ins : BitVec 32} (pc : ins.getLsbD 15 = true)
    : registerList ins = loopList ins ++ [15] := by
  rw [registerList_eq, pc, if_pos rfl]

theorem mem_loopList {ins : BitVec 32} {ri : Nat}
    : ri ∈ loopList ins ↔ ri < 15 ∧ ins.getLsbD ri = true := by
  rw [loopList, List.mem_filter, List.mem_range]

theorem length_loopList_le (ins : BitVec 32) : (loopList ins).length ≤ 15 := by
  have bound := List.length_filter_le (fun ri => ins.getLsbD ri) (List.range 15)
  rwa [List.length_range] at bound

/-- Adding up bits counts the set ones, by induction on the bit numbers. -/
theorem foldl_getBit (ins : BitVec 32) (bits : List Nat) (start : BitVec 8)
    : bits.foldl (fun nb i => nb + (getBit ins i).setWidth 8) start
      = start + BitVec.ofNat 8 (bits.filter fun i => ins.getLsbD i).length := by
  induction bits generalizing start with
  | nil => simp
  | cons i rest ih =>
      rw [List.foldl_cons, ih, List.filter_cons, getBit_eq]
      cases ins.getLsbD i with
      | true =>
          simp only [if_true, List.length_cons, BitVec.ofNat_add, BitVec.add_assoc]
          congr 1
          rw [BitVec.add_comm]
          rfl
      | false =>
          have none : (if false = true then (1 : BitVec 32) else 0).setWidth 8 = 0#8 := rfl
          rw [none, BitVec.add_zero]
          rfl

/-- `nb_reg` counts the registers of the loops. -/
theorem nbReg_eq (ins : BitVec 32)
    : (nbReg ins).setWidth 32 * 4 = listBytes (loopList ins).length := by
  have bound := length_loopList_le ins
  have count : nbReg ins = BitVec.ofNat 8 (loopList ins).length :=
    (foldl_getBit ins (List.range 15) 0).trans (BitVec.zero_add _)
  rw [count, listBytes]
  apply BitVec.eq_of_toNat_eq
  rw [BitVec.toNat_mul, BitVec.toNat_setWidth, BitVec.toNat_ofNat, BitVec.toNat_ofNat,
    show (4 : BitVec 32).toNat = 4 from rfl]
  omega

/-- The base register number of the source is the field. -/
theorem baseRegister_eq (ins : BitVec 32)
    : (getBits ins 19 16).setWidth 8 = baseRegister ins :=
  getBits_registerField ins 16

/-- The window of the loops: the first address and write-back for their register count, and
an end address one word before the end. Witness: the four modes.
-/
theorem multipleAddresses_eq (p : ArmCore) (ins : BitVec 32)
    (passes : conditionPassed (armReadCpsr p) ins)
    : multipleAddresses p ins
      = let base := armReadRegister p (baseRegister ins)
        let n := (loopList ins).length
        (transferStart ins base n, transferStart ins base n + listBytes n - 4,
          if ins.getLsbD 21 then
            armWriteRegister p (baseRegister ins) (transferBase ins base n)
          else p) := by
  have lastDA (base bytes : BitVec 32) : base = base - bytes + 4 + bytes - 4 := by bv_omega
  have lastIB (base bytes : BitVec 32) : base + bytes = base + 4 + bytes - 4 := by bv_omega
  have lastDB (base bytes : BitVec 32) : base - 4 = base - bytes + bytes - 4 := by bv_omega
  have set (i : Nat) : getBit ins i = 1 ↔ ins.getLsbD i = true := getBit_eq_one_iff ins i
  have clear (i : Nat) : getBit ins i = 0 ↔ ins.getLsbD i = false := getBit_eq_zero_iff ins i
  simp only [multipleAddresses, nbReg_eq, baseRegister_eq, passes, true_and, set, clear,
    transferStart, transferBase]
  generalize armReadRegister p (baseRegister ins) = base,
    listBytes (loopList ins).length = bytes
  cases ins.getLsbD 24 with
  | false =>
      cases ins.getLsbD 23 with
      | false => exact congrArg (fun last => (base - bytes + 4, last, _)) (lastDA base bytes)
      | true => rfl
  | true =>
      cases ins.getLsbD 23 with
      | false => exact congrArg (fun last => (base - bytes, last, _)) (lastDB base bytes)
      | true => exact congrArg (fun last => (base + 4, last, _)) (lastIB base bytes)

/-- What the store loop does for a listed register. -/
def stmStep (host : Host) (s : MultipleState) (ri : Nat) : MultipleState :=
  { s with
    p := (armWriteWord host s.p s.address (armReadRegister s.p (BitVec.ofNat 8 ri))).2
    address := s.address + 4 }

theorem stmTransfer_eq_foldl (host : Host) (ins : BitVec 32) (s : MultipleState)
    : stmTransfer host ins s = (loopList ins).foldl (stmStep host) s := by
  rw [stmTransfer, loopList, List.foldl_filter]
  congr 1
  funext s ri
  simp only [stmBody, stmStep, getBit_eq_one_iff, BitVec.ofNat_eq_ofNat]

/-- The address moves on by a word for each register, by induction on the list. -/
theorem foldl_address {step : MultipleState → Nat → MultipleState}
    (moves : ∀ s ri, (step s ri).address = s.address + 4) (list : List Nat) (s : MultipleState)
    : (list.foldl step s).address = s.address + listBytes list.length := by
  induction list generalizing s with
  | nil => simp [listBytes]
  | cons ri rest ih =>
      rw [List.foldl_cons, ih, List.length_cons, listBytes_succ, moves]
      bv_omega

/-- It moves on whether or not the writes succeed. -/
theorem foldl_stmStep_address (host : Host) (list : List Nat) (s : MultipleState)
    : (list.foldl (stmStep host) s).address = s.address + listBytes list.length :=
  foldl_address (fun _ _ => rfl) list s

/-- When every slot can be written, the loop stores the registers in their slots.
Witness: induction on the list; a store changes no register and no bound of the memory.
-/
theorem foldl_stmStep (host : Host) (list : List Nat) (s : MultipleState)
    (accessible : ∀ slot ∈ slots s.address list, s.p.mem.Accessible 4 slot.2)
    : (list.foldl (stmStep host) s).p
      = storeSlots host s.p (fun ri => armReadRegister s.p (BitVec.ofNat 8 ri))
          (slots s.address list) := by
  induction list generalizing s with
  | nil => rfl
  | cons ri rest ih =>
      have first : s.p.mem.Accessible 4 s.address := accessible _ List.mem_cons_self
      have stored : (stmStep host s ri).p
          = storeSlots host s.p (fun ri => armReadRegister s.p (BitVec.ofNat 8 ri))
              [(ri, s.address)] := by
        simp only [stmStep, armWriteWord_eq, memoryWriteWord_eq, first, if_true]
        rfl
      have later : ∀ slot ∈ slots (stmStep host s ri).address rest,
          (stmStep host s ri).p.mem.Accessible 4 slot.2 := by
        intro slot member
        rw [stored]
        exact accessible slot (List.mem_cons_of_mem _ member)
      rw [List.foldl_cons, ih _ later, stored]
      rfl

/-- What the load loop does for a listed register. -/
def ldmStep (host : Host) (s : MultipleState) (ri : Nat) : MultipleState :=
  let value := (armReadWord host s.p s.address s.value).2
  { p := armWriteRegister s.p (BitVec.ofNat 8 ri) value, address := s.address + 4, value }

theorem ldmLoop_eq_foldl (host : Host) (ins : BitVec 32) (s : MultipleState)
    : (List.range 15).foldl (ldmBody host ins) s = (loopList ins).foldl (ldmStep host) s := by
  rw [loopList, List.foldl_filter]
  congr 1
  funext s ri
  simp only [ldmBody, ldmStep, getBit_eq_one_iff, BitVec.ofNat_eq_ofNat]

theorem foldl_ldmStep_address (host : Host) (list : List Nat) (s : MultipleState)
    : (list.foldl (ldmStep host) s).address = s.address + listBytes list.length :=
  foldl_address (fun _ _ => rfl) list s

/-- When every slot can be read, the loop loads the registers below r15 from their slots.
Witness: induction on the list; a load changes no memory.
-/
theorem foldl_ldmStep (host : Host) (list : List Nat) (low : ∀ ri ∈ list, ri < 15)
    (s : MultipleState)
    (accessible : ∀ slot ∈ slots s.address list, s.p.mem.Accessible 4 slot.2)
    : (list.foldl (ldmStep host) s).p
      = (slots s.address list).foldl (loadSlot host s.p.mem) s.p := by
  induction list generalizing s with
  | nil => rfl
  | cons ri rest ih =>
      have first : s.p.mem.Accessible 4 s.address := accessible _ List.mem_cons_self
      have notPc : ri ≠ 15 := Nat.ne_of_lt (low ri List.mem_cons_self)
      have loaded : (ldmStep host s ri).p = loadSlot host s.p.mem s.p (ri, s.address) := by
        simp only [ldmStep, armReadWord, memoryReadWord_eq, first, if_true, loadSlot, notPc,
          if_false, slotWord]
      have kept : (ldmStep host s ri).p.mem = s.p.mem := rfl
      rw [List.foldl_cons, ih fun r member => low r (List.mem_cons_of_mem _ member)]
      · rw [kept, loaded]
        rfl
      · intro slot member
        rw [kept]
        exact accessible slot (List.mem_cons_of_mem _ member)

/-- The load part ends one word past its last address: its final step comes on top of those
of the loop.
-/
theorem ldmTransfer_address (host : Host) (ins : BitVec 32) (s : MultipleState)
    : (ldmTransfer host ins s).address
      = s.address + listBytes (loopList ins).length + 4 := by
  have loop := foldl_ldmStep_address host (loopList ins) s
  rw [← ldmLoop_eq_foldl host ins s] at loop
  simp only [ldmTransfer]
  split <;> simp only [loop]

theorem toNat_baseRegister_lt (ins : BitVec 32) : (baseRegister ins).toNat < 16 := by
  rw [baseRegister, BitVec.toNat_setWidth]
  omega

/-- The state with the base written back for the registers of the loops. -/
def movedBase (p : ArmCore) (ins : BitVec 32) : ArmCore :=
  if ins.getLsbD 21 then
    armWriteRegister p (baseRegister ins)
      (transferBase ins (armReadRegister p (baseRegister ins)) (loopList ins).length)
  else p

/-- The slots that the loops go through. -/
def loopSlots (p : ArmCore) (ins : BitVec 32) : List (Nat × BitVec 32) :=
  slots (transferStart ins (armReadRegister p (baseRegister ins)) (loopList ins).length)
    (loopList ins)

theorem movedBase_mem (p : ArmCore) (ins : BitVec 32) : (movedBase p ins).mem = p.mem := by
  unfold movedBase
  split <;> rfl

theorem armReadCpsr_movedBase (p : ArmCore) (ins : BitVec 32)
    : armReadCpsr (movedBase p ins) = armReadCpsr p := by
  unfold movedBase
  split
  · exact armReadCpsr_armWriteRegister _ _ _
  · rfl

/-- A register number of the loops survives the conversions between the two types. -/
theorem toNat_ofNat_register {ri : Nat} (low : ri < 15) : (BitVec.ofNat 8 ri).toNat = ri := by
  rw [BitVec.toNat_ofNat]
  omega

/-- The loops never name r15. -/
theorem ofNat_register_ne_pc {ri : Nat} (low : ri < 15) : BitVec.ofNat 8 ri ≠ 15 := by
  intro same
  have number := toNat_ofNat_register low
  rw [same] at number
  exact absurd number.symm (Nat.ne_of_lt low)

/-- The state with its base moved differs from the old one in the base register only. -/
theorem readRegister_movedBase (p : ArmCore) (ins : BitVec 32) {reg : BitVec 8}
    (notBase : reg ≠ baseRegister ins)
    : readRegister (movedBase p ins).reg reg = readRegister p.reg reg := by
  unfold movedBase
  split
  · rw [armWriteRegister_reg, readRegister_writeRegister,
      if_neg fun same => notBase same.1.symm]
  · rfl

/-- The base register of that state holds the moved base. -/
theorem readRegister_movedBase_base (p : ArmCore) {ins : BitVec 32}
    (moves : ins.getLsbD 21 = true)
    : readRegister (movedBase p ins).reg (baseRegister ins)
      = transferBase ins (armReadRegister p (baseRegister ins)) (loopList ins).length := by
  rw [movedBase, if_pos moves, armWriteRegister_reg, readRegister_writeRegister,
    if_pos ⟨rfl, toNat_baseRegister_lt ins⟩]

/-- A register of the loops other than the base reads as before. -/
theorem armReadRegister_movedBase (p : ArmCore) {ins : BitVec 32} {ri : Nat} (low : ri < 15)
    (notBase : ri ≠ (baseRegister ins).toNat)
    : armReadRegister (movedBase p ins) (BitVec.ofNat 8 ri)
      = readRegister p.reg (BitVec.ofNat 8 ri) := by
  have number := toNat_ofNat_register low
  have notPc := ofNat_register_ne_pc low
  rw [armReadRegister_of_ne _ _ notPc, readRegister_movedBase]
  intro same
  exact notBase (by rw [← same, number])

section Transfer

variable {host : Host} {p : ArmCore} {ins : BitVec 32}
  (passes : conditionPassed (armReadCpsr p) ins)

include passes

/-- The instruction runs its loops from the first address on the state with the new base, and
checks the address they end with.
-/
theorem armLoadStoreMultiple_eq
    : armLoadStoreMultiple host p ins
      = let start := transferStart ins (armReadRegister p (baseRegister ins))
          (loopList ins).length
        let s : MultipleState := { p := movedBase p ins, address := start, value := 0 }
        let s := if ins.getLsbD 20 then ldmTransfer host ins s else stmTransfer host ins s
        if start + listBytes (loopList ins).length - 4 ≠ s.address - 4 then (1, s.p)
        else (0, s.p) := by
  have passesMoved : conditionPassed (armReadCpsr (movedBase p ins)) ins := by
    rwa [armReadCpsr_movedBase]
  have window := multipleAddresses_eq p ins passes
  have first := congrArg Prod.fst window
  have last := congrArg (fun window => window.2.1) window
  have moved : (multipleAddresses p ins).2.2 = movedBase p ins :=
    congrArg (fun window => window.2.2) window
  simp only at first last
  simp only [armLoadStoreMultiple, first, last, moved, passesMoved, if_true, getBit_eq_one_iff,
    BitVec.ofNat_eq_ofNat]

/-- A load multiple reports a wrong end address, always. -/
theorem armLoadStoreMultiple_load_result (load : ins.getLsbD 20 = true)
    : (armLoadStoreMultiple host p ins).1 = 1 := by
  rw [armLoadStoreMultiple_eq passes]
  simp only [load, if_true, ldmTransfer_address]
  rw [if_pos]
  bv_omega

/-- A store multiple of accessible slots succeeds and stores the registers it finds after the
write-back.
-/
theorem armLoadStoreMultiple_store (store : ins.getLsbD 20 = false)
    (accessible : ∀ slot ∈ loopSlots p ins, p.mem.Accessible 4 slot.2)
    : armLoadStoreMultiple host p ins
      = (0, storeSlots host (movedBase p ins)
          (fun ri => armReadRegister (movedBase p ins) (BitVec.ofNat 8 ri))
          (loopSlots p ins)) := by
  rw [armLoadStoreMultiple_eq passes]
  simp only [store, Bool.false_eq_true, if_false, stmTransfer_eq_foldl, foldl_stmStep_address,
    ne_eq, not_true_eq_false]
  rw [foldl_stmStep]
  · rfl
  · simp only [movedBase_mem]
    exact accessible

/-- A load multiple without r15 of accessible slots loads the registers from their slots. -/
theorem armLoadStoreMultiple_load (load : ins.getLsbD 20 = true)
    (noPc : ins.getLsbD 15 = false)
    (accessible : ∀ slot ∈ loopSlots p ins, p.mem.Accessible 4 slot.2)
    : (armLoadStoreMultiple host p ins).2
      = (loopSlots p ins).foldl (loadSlot host p.mem) (movedBase p ins) := by
  have low : ∀ ri ∈ loopList ins, ri < 15 := fun ri member => (mem_loopList.mp member).1
  have result (test : Prop) [Decidable test] (q : ArmCore)
      : (if test then ((1 : Int), q) else (0, q)).2 = q := by
    split <;> rfl
  rw [armLoadStoreMultiple_eq passes]
  simp only [load, if_true, result, ldmTransfer, getBit_eq_one_iff, BitVec.ofNat_eq_ofNat, noPc,
    Bool.false_eq_true, if_false, ldmLoop_eq_foldl]
  rw [foldl_ldmStep host _ low]
  · simp only [movedBase_mem]
    rfl
  · simp only [movedBase_mem]
    exact accessible

end Transfer

end Armator
