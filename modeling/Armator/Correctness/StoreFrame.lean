import Armator.Correctness.Runs

/-! Which bytes of the memory a step can change: those of its stores. -/

namespace Armator

/-- The words that store: STR, STRB, STRH and STM, by the decoder they are dispatched to. -/
def IsStore (ins : BitVec 32) : Prop :=
  (IsHalfTransfer ins ∨ (insClass ins = 2 ∨ insClass ins = 3) ∨ insClass ins = 4)
  ∧ ins.getLsbD 20 = false

section Writes

variable {host : Host} {p : ArmCore} {address : BitVec 32} {j : Nat}

/-- A write changes bytes of its own only, and none when it fails. -/
theorem covers_of_writeByte {value : BitVec 8}
    (changed : (armWriteByte p address value).2.mem.data j ≠ p.mem.data j)
    : p.mem.Accessible 1 address ∧ address.toNat ≤ j ∧ j < address.toNat + 1 := by
  simp only [armWriteByte, memoryWriteByte_eq] at changed
  split at changed
  · next accessible =>
      by_cases same : j = address.toNat
      · exact ⟨accessible, by omega⟩
      · exact absurd (if_neg same) changed
  · exact absurd rfl changed

theorem covers_of_writeHalf {value : BitVec 16}
    (changed : (armWriteHalf host p address value).2.mem.data j ≠ p.mem.data j)
    : p.mem.Accessible 2 address ∧ address.toNat ≤ j ∧ j < address.toNat + 2 := by
  simp only [armWriteHalf, memoryWriteHalf_eq] at changed
  split at changed
  · next accessible =>
      by_contra outside
      exact changed (ByteStore.store_outside fun inside => outside ⟨accessible, inside⟩)
  · exact absurd rfl changed

theorem covers_of_writeWord {value : BitVec 32}
    (changed : (armWriteWord host p address value).2.mem.data j ≠ p.mem.data j)
    : p.mem.Accessible 4 address ∧ address.toNat ≤ j ∧ j < address.toNat + 4 := by
  simp only [armWriteWord, memoryWriteWord_eq] at changed
  split at changed
  · next accessible =>
      by_contra outside
      exact changed (ByteStore.store_outside fun inside => outside ⟨accessible, inside⟩)
  · exact absurd rfl changed

end Writes

/-- A changed byte is one of an allowed access that succeeds.
Witness: induction on the effects; the size of the memory stays, so an access of a later state
is one of the first.
-/
theorem Effects.covers {host : Host} {allowed : Nat → BitVec 32 → Prop} {p q : ArmCore} {j : Nat}
    (effects : Effects host allowed p q) (changed : q.mem.data j ≠ p.mem.data j)
    : ∃ width address,
        allowed width address
        ∧ p.mem.Accessible width address
        ∧ address.toNat ≤ j
        ∧ j < address.toNat + width := by
  induction effects with
  | refl p => exact absurd rfl changed
  | @trans p q r before after first second =>
      by_cases kept : q.mem.data j = p.mem.data j
      · rw [← kept] at changed
        obtain ⟨width, address, fits, accessible, covers⟩ := second changed
        have size : q.mem.size = p.mem.size := (SameMachine.of_effects before).size
        refine ⟨width, address, fits, ?_, covers⟩
        rwa [Memory.Accessible, size] at accessible
      · exact first kept
  | countCycle p => exact absurd rfl changed
  | writeRegister p reg value => exact absurd rfl changed
  | writeUsrRegister p reg value => exact absurd rfl changed
  | writeFlags p flags => exact absurd rfl changed
  | writeT p b => exact absurd rfl changed
  | writeByte p value fits => exact ⟨1, _, fits, covers_of_writeByte changed⟩
  | writeHalf p value fits => exact ⟨2, _, fits, covers_of_writeHalf changed⟩
  | writeWord p value fits => exact ⟨4, _, fits, covers_of_writeWord changed⟩

/-- A failing fetch changes no byte. -/
theorem armException_mem (p : ArmCore) (exception : BitVec 8)
    : (armException p exception).mem = p.mem := by
  unfold armException
  split <;> rfl

/-- A step changes memory only as a store whose condition passes, and then only bytes of its own
accesses that succeed.
-/
theorem armStep_changesOnlyStored (host : Host) (p q : ArmCore) (result : Int) (j : Nat)
    (returned : armStep host p = .returned result q)
    (changed : q.mem.data j ≠ p.mem.data j)
    : ∃ ins,
        Fetches host p ins
        ∧ IsStore ins
        ∧ conditionPassed (armReadCpsr p) ins
        ∧ ∃ access ∈ dataAccesses host (afterFetch p) ins,
            p.mem.Accessible access.width access.address ∧ access.Covers j := by
  by_cases accessible : p.mem.Accessible 4 (fetchAddress p)
  · have fetched := fetches_of_accessible host accessible
    obtain ⟨width, address, ⟨store, access, member, rfl, rfl⟩, inside, covers⟩ :=
      (Effects.armStep fetched returned).covers changed
    have passes := passes_of_dataAccess member
    rw [armReadCpsr_afterFetch] at passes
    exact ⟨_, fetched, ⟨transfer_of_dataAccess member, store⟩, passes, access, member, inside,
      covers⟩
  · rw [armStep_of_failedFetch host accessible] at returned
    obtain ⟨-, rfl⟩ := Outcome.returned.inj returned
    exact absurd (congrArg (fun mem => mem.data j) (armException_mem _ _)) changed

/-- STR r1, [r1] with r1 = 0 stores over its own word. -/
theorem str_changesOwnBytes
    : ∃ ins,
        Fetches (.plain .little) (oneWord 4 0xE5811000) ins
        ∧ IsStore ins
        ∧ conditionPassed (armReadCpsr (oneWord 4 0xE5811000)) ins
        ∧ ∃ access ∈ dataAccesses (.plain .little) (afterFetch (oneWord 4 0xE5811000)) ins,
            (oneWord 4 0xE5811000).mem.Accessible access.width access.address
            ∧ access.Covers 3 := by
  have step := armStep_of_returned
    (fetches_oneWord (.plain .little) (by decide : 0 < 4) 0xE5811000)
    (decoderOutcome_single _ _ (.inl (by decide +kernel)))
  exact armStep_changesOnlyStored (.plain .little) (oneWord 4 0xE5811000) _ _ 3 step
    (by decide +kernel)

end Armator
