import Armator.Correctness.Dispatch
import Armator.Correctness.MultipleLoops

/-! The memory accesses of a load or store, and what a step reports when one of them fails. -/

namespace Armator

/-- An access of `width` bytes for a register. -/
structure DataAccess where
  reg : BitVec 8
  width : Nat
  address : BitVec 32
deriving DecidableEq

/-- The bytes of an access. -/
def DataAccess.Covers (access : DataAccess) (j : Nat) : Prop :=
  access.address.toNat ≤ j ∧ j < access.address.toNat + access.width

/-- The accesses of the loops, and the one for r15 of a load. -/
def multipleAccesses (p : ArmCore) (ins : BitVec 32) : List DataAccess :=
  let start := (multipleAddresses p ins).1
  let loop := (slots start (loopList ins)).map fun slot =>
    { reg := BitVec.ofNat 8 slot.1, width := 4, address := slot.2 }
  if ins.getLsbD 20 ∧ ins.getLsbD 15 then
    loop ++ [{ reg := 15, width := 4, address := start + listBytes (loopList ins).length }]
  else loop

/-- The accesses of a decoder, in their order, with the addresses it computes. A word whose
condition fails makes none.
-/
def dataAccesses (host : Host) (p : ArmCore) (ins : BitVec 32) : List DataAccess :=
  let rd := (getBits ins 15 12).setWidth 8
  if conditionPassed (armReadCpsr p) ins then
    if IsHalfTransfer ins then [{ reg := rd, width := 2, address := (halfAddress p ins).1 }]
    else if insClass ins = 2 ∨ insClass ins = 3 then
      [{ reg := rd
         width := if ins.getLsbD 22 then 1 else 4
         address := loadStoreAddress p ins (loadStoreIndex host p ins) }]
    else if insClass ins = 4 then multipleAccesses p ins
    else []
  else []

/-- A store of the instruction has this width and address. -/
def StoresAt (host : Host) (p : ArmCore) (ins : BitVec 32) (width : Nat) (address : BitVec 32)
    : Prop :=
  ins.getLsbD 20 = false
  ∧ ∃ access ∈ dataAccesses host p ins, access.width = width ∧ access.address = address

/-- The state in which these accesses take place: the base is written back. -/
def accessState (host : Host) (p : ArmCore) (ins : BitVec 32) : ArmCore :=
  if IsHalfTransfer ins then (halfAddress p ins).2
  else if insClass ins = 2 ∨ insClass ins = 3 then
    let index := loadStoreIndex host p ins
    loadStoreWriteBack p ins index (loadStoreAddress p ins index)
  else if insClass ins = 4 then (multipleAddresses p ins).2.2
  else p

section Cpsr

variable (p : ArmCore) (ins : BitVec 32)

theorem armReadCpsr_armWriteUsrRegister (reg : BitVec 8) (value : BitVec 32)
    : armReadCpsr (armWriteUsrRegister p reg value) = armReadCpsr p :=
  readCpsr_writeUsrRegister p.reg reg value

theorem armReadCpsr_loadStoreWriteBack (index address : BitVec 32)
    : armReadCpsr (loadStoreWriteBack p ins index address) = armReadCpsr p := by
  simp only [loadStoreWriteBack, apply_ite armReadCpsr, armReadCpsr_armWriteRegister,
    armReadCpsr_armWriteUsrRegister, ite_self]

theorem armReadCpsr_multipleAddresses
    : armReadCpsr (multipleAddresses p ins).2.2 = armReadCpsr p := by
  unfold multipleAddresses
  simp only
  split <;> split <;>
    simp only [apply_ite armReadCpsr, armReadCpsr_armWriteRegister, ite_self]

theorem armReadCpsr_halfAddress : armReadCpsr (halfAddress p ins).2 = armReadCpsr p := by
  unfold halfAddress
  simp only [apply_ite armReadCpsr, armReadCpsr_armWriteRegister, ite_self]
  split
  · rfl
  · exact armReadCpsr_armWriteRegister _ _ _

end Cpsr

section Memory

variable (p : ArmCore) (ins : BitVec 32)

theorem loadStoreWriteBack_mem (index address : BitVec 32)
    : (loadStoreWriteBack p ins index address).mem = p.mem := by
  simp only [loadStoreWriteBack, apply_ite ArmCore.mem, armWriteRegister_mem,
    armWriteUsrRegister_mem, ite_self]

theorem multipleAddresses_mem : (multipleAddresses p ins).2.2.mem = p.mem := by
  unfold multipleAddresses
  simp only
  split <;> split <;> simp only [apply_ite ArmCore.mem, armWriteRegister_mem, ite_self]

theorem halfAddress_mem : (halfAddress p ins).2.mem = p.mem := by
  unfold halfAddress
  simp only [apply_ite ArmCore.mem, armWriteRegister_mem, ite_self]
  split <;> rfl

end Memory

/-- Some access of the instruction fails. -/
def SomeAccessFails (host : Host) (p : ArmCore) (ins : BitVec 32) : Prop :=
  ∃ access ∈ dataAccesses host p ins, ¬ p.mem.Accessible access.width access.address

/-- The step reports an abort, loads no register from a failed access and changes no byte of
one.
-/
def HandlesFailedAccess (host : Host) (p : ArmCore) (ins : BitVec 32) : Prop :=
  ∃ q,
    armStep host p = .returned ArmException.DATA_ABORT q
    ∧ ∀ access ∈ dataAccesses host (afterFetch p) ins,
        ¬ p.mem.Accessible access.width access.address
        → (ins.getLsbD 20 = true
            → readRegister q.reg access.reg
              = readRegister (accessState host (afterFetch p) ins).reg access.reg)
          ∧ ∀ j, access.Covers j → q.mem.data j = p.mem.data j

/-- Only loads and stores access data. -/
theorem transfer_of_dataAccess {host : Host} {p : ArmCore} {ins : BitVec 32}
    {access : DataAccess} (member : access ∈ dataAccesses host p ins)
    : IsHalfTransfer ins ∨ (insClass ins = 2 ∨ insClass ins = 3) ∨ insClass ins = 4 := by
  unfold dataAccesses at member
  split at member
  · split at member
    · next half => exact .inl half
    · split at member
      · next single => exact .inr (.inl single)
      · split at member
        · next class4 => exact .inr (.inr class4)
        · cases member
  · cases member

/-- A word whose condition fails makes no access. -/
theorem passes_of_dataAccess {host : Host} {p : ArmCore} {ins : BitVec 32}
    {access : DataAccess} (member : access ∈ dataAccesses host p ins)
    : conditionPassed (armReadCpsr p) ins := by
  unfold dataAccesses at member
  split at member
  · next passes => exact passes
  · cases member

section Stores

variable {host : Host} {p : ArmCore} {ins : BitVec 32}
  (passes : conditionPassed (armReadCpsr p) ins) (store : ins.getLsbD 20 = false)

include passes store

/-- The store of a halfword word. -/
theorem storesAt_half (half : IsHalfTransfer ins)
    : StoresAt host p ins 2 (halfAddress p ins).1 := by
  refine ⟨store,
    { reg := (getBits ins 15 12).setWidth 8, width := 2, address := (halfAddress p ins).1 },
    ?_, rfl, rfl⟩
  simp only [dataAccesses, passes, half, if_true, List.mem_singleton]

/-- The store of a word or byte. -/
theorem storesAt_single (single : insClass ins = 2 ∨ insClass ins = 3)
    : StoresAt host p ins (if ins.getLsbD 22 then 1 else 4)
        (loadStoreAddress p ins (loadStoreIndex host p ins)) := by
  have notHalf : ¬ IsHalfTransfer ins := (notLow_of_single single).1
  refine ⟨store,
    { reg := (getBits ins 15 12).setWidth 8
      width := if ins.getLsbD 22 then 1 else 4
      address := loadStoreAddress p ins (loadStoreIndex host p ins) },
    ?_, rfl, rfl⟩
  simp only [dataAccesses, passes, notHalf, single, if_true, if_false, List.mem_singleton]

/-- The stores of a multiple transfer: its loop slots. -/
theorem storesAt_multiple (class4 : insClass ins = 4) {slot : Nat × BitVec 32}
    (member : slot ∈ slots (multipleAddresses p ins).1 (loopList ins))
    : StoresAt host p ins 4 slot.2 := by
  have notHalf : ¬ IsHalfTransfer ins := by
    rintro ⟨class0, -⟩
    rw [class0] at class4
    exact absurd class4 (by decide)
  refine ⟨store, { reg := BitVec.ofNat 8 slot.1, width := 4, address := slot.2 }, ?_, rfl, rfl⟩
  simp only [dataAccesses, passes, notHalf, class4, if_true, if_false,
    multipleAccesses, store, Bool.false_eq_true, false_and]
  exact List.mem_map_of_mem member

end Stores

/-- A load or store never reports anything. -/
theorem armStep_transfer {host : Host} {p : ArmCore} {ins : BitVec 32}
    (fetched : Fetches host p ins)
    (transfer : IsHalfTransfer ins ∨ (insClass ins = 2 ∨ insClass ins = 3) ∨ insClass ins = 4)
    : ∃ q, armStep host p = .returned 0 q := by
  rcases transfer with half | single | class4
  · exact ⟨_, armStep_of_returned fetched (decoderOutcome_half host (afterFetch p) half)⟩
  · exact ⟨_, armStep_of_returned fetched (decoderOutcome_single host (afterFetch p) single)⟩
  · exact ⟨_, armStep_of_returned fetched (decoderOutcome_multiple host (afterFetch p) class4)⟩

/-- No failed access is handled, of any width, at any place of a multiple transfer: the step
of a load or store always returns 0.
-/
theorem armStep_dropsFailedAccess (host : Host) (p : ArmCore) (ins : BitVec 32)
    (fetched : Fetches host p ins) (fails : SomeAccessFails host (afterFetch p) ins)
    : ¬ HandlesFailedAccess host p ins := by
  rintro ⟨r, aborts, -⟩
  obtain ⟨access, member, -⟩ := fails
  obtain ⟨q, step⟩ := armStep_transfer fetched (transfer_of_dataAccess member)
  rw [step] at aborts
  exact absurd (Outcome.returned.inj aborts).1 (by decide)

/-- STR r0, [r1, #2] with r1 = 0 stores to a misaligned address. -/
theorem str_misaligned_isDropped
    : ¬ HandlesFailedAccess (.plain .little) (oneWord 4 0xE5810002) 0xE5810002 :=
  armStep_dropsFailedAccess (.plain .little) (oneWord 4 0xE5810002) 0xE5810002
    (fetches_oneWord _ (by decide) _)
    ⟨{ reg := 0, width := 4, address := 2 }, by decide +kernel, by decide +kernel⟩

/-- LDR r0, [r1, #4] with r1 = 0 reads outside a memory of 4 bytes, and the step returns 0. -/
theorem ldr_outside_returnsZero
    : Fetches (.plain .little) (oneWord 4 0xE5910004) 0xE5910004
      ∧ SomeAccessFails (.plain .little) (afterFetch (oneWord 4 0xE5910004)) 0xE5910004
      ∧ ¬ HandlesFailedAccess (.plain .little) (oneWord 4 0xE5910004) 0xE5910004 := by
  refine ⟨fetches_oneWord _ (by decide) _,
    ⟨{ reg := 0, width := 4, address := 4 }, by decide +kernel, by decide +kernel⟩, ?_⟩
  rintro ⟨q, aborts, -⟩
  obtain ⟨r, step⟩ := armStep_transfer
    (fetches_oneWord (.plain .little) (by decide : 0 < 4) 0xE5910004)
    (.inr (.inl (.inl (by decide +kernel))))
  rw [step] at aborts
  exact absurd (Outcome.returned.inj aborts).1 (by decide)

end Armator
