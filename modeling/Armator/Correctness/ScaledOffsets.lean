import Armator.Correctness.ShifterOperand
import Armator.Simulator.LoadStore

/-! The scaled register offset that `arm_load_store` computes, and when it is the architecture's.
Every kind of shift but LSL falls through to the last case, so the right shifts are rotations,
and by 0 they are the source's RRX.
-/

namespace Armator

open Bits ShiftKind

/-- By 1 to 31 bits the source's `ror` is the rotation, on every host. -/
theorem ror_of_lt (host : Host) (value : BitVec 32) (amount : BitVec 8)
    (positive : 0 < amount.toNat) (inside : amount.toNat < 32)
    : ror host value amount = value.rotateRight amount.toNat := by
  have count : (32 - amount.toNat : Int) = (32 - amount.toNat : Nat) := by omega
  rw [ror, shr_of_lt host value inside, count, shl_of_lt host _ (by omega),
    BitVec.rotateRight_def, Nat.mod_eq_of_lt inside]

/-- The source's RRX: its logical `||` gives a truth value. -/
def truthRrx (value : BitVec 32) (carry : Bool) : BitVec 32 :=
  if carry ∨ value >>> 1 ≠ 0 then 1 else 0

/-- What the `switch` of `arm_load_store` computes for each kind of shift. -/
def codeScaled (kind : ShiftKind) (value : BitVec 32) (amount : Nat) (carry : Bool) : BitVec 32 :=
  match kind with
  | LSL => value <<< amount
  | LSR | ASR | ROR => if amount = 0 then truthRrx value carry else value.rotateRight amount

/-- The number of a kind in the source's `switch`. -/
def shiftNumber : ShiftKind → BitVec 16
  | LSL => 0b00
  | LSR => 0b01
  | ASR => 0b10
  | ROR => 0b11

theorem getBits_shiftNumber (ins : BitVec 32)
    : (getBits ins 6 5).setWidth 16 = shiftNumber (decode ins) := by
  rw [getBits_eq]
  apply BitVec.eq_of_getLsbD_eq
  intro i hi
  simp only [BitVec.getLsbD_setWidth, BitVec.getLsbD_extractLsb', decode]
  cases high : ins.getLsbD 6 <;> cases low : ins.getLsbD 5
  all_goals interval_cases i <;> simp_all [shiftNumber]

/-- The carry bit is moved to the top before the test. -/
theorem logicalRrx_eq (cpsr value : BitVec 32)
    : (if getBit cpsr CpsrBit.C <<< 31 ≠ 0 ∨ value >>> 1 ≠ 0 then (1 : BitVec 32) else 0)
      = truthRrx value (cpsr.getLsbD CpsrBit.C) := by
  have test : getBit cpsr CpsrBit.C <<< 31 ≠ 0 ↔ cpsr.getLsbD CpsrBit.C = true := by
    rw [getBit_eq]
    cases cpsr.getLsbD CpsrBit.C <;> decide
  exact if_congr (or_congr test Iff.rfl) rfl rfl

/-- The falling-through cases. Witness: the last assignment is that of the rotation. -/
theorem scaledIndex_eq (host : Host) (p : ArmCore) (kind : ShiftKind) (amount rm : BitVec 16)
    (small : amount.toNat < 32)
    : scaledIndex host p (shiftNumber kind) amount rm
      = codeScaled kind (armReadRegister p (rm.setWidth 8)) amount.toNat
          ((armReadCpsr p).getLsbD CpsrBit.C) := by
  have narrow : (amount.setWidth 8).toNat = amount.toNat := by
    rw [BitVec.toNat_setWidth]
    omega
  have none : amount = 0 ↔ amount.toNat = 0 := by
    rw [← BitVec.toNat_inj]
    rfl
  have last (value : BitVec 32)
      : (if amount = 0 then
          if getBit (armReadCpsr p) CpsrBit.C <<< 31 ≠ 0 ∨ value >>> 1 ≠ 0 then 1 else 0
        else ror host value (amount.setWidth 8))
        = if amount.toNat = 0 then truthRrx value ((armReadCpsr p).getLsbD CpsrBit.C)
          else value.rotateRight amount.toNat := by
    simp only [none, logicalRrx_eq]
    split
    · rfl
    · rw [ror_of_lt host value _ (by omega) (by omega), narrow]
  cases kind with
  | LSL => exact shl_of_lt host _ small
  | LSR => exact last _
  | ASR => exact last _
  | ROR => exact last _

/-- When the code's scaled offset is the architecture's. -/
def ScaledOffsetExact (kind : ShiftKind) (value : BitVec 32) (amount : Nat) (carry : Bool) : Prop :=
  match kind with
  | LSL => True
  | LSR =>
      if amount = 0 then carry = false ∧ value.toNat < 2 else ∀ i < amount, value.getLsbD i = false
  | ASR =>
      if amount = 0 then carry = false ∧ value.toNat < 2
      else ∀ i < amount, value.getLsbD i = value.msb
  | ROR => amount = 0 → carry = false ∧ value.toNat < 4

instance (kind : ShiftKind) (value : BitVec 32) (amount : Nat) (carry : Bool)
    : Decidable (ScaledOffsetExact kind value amount carry) :=
  match kind with
  | LSL => inferInstanceAs (Decidable True)
  | LSR =>
      inferInstanceAs (Decidable (if amount = 0 then carry = false ∧ value.toNat < 2
        else ∀ i < amount, value.getLsbD i = false))
  | ASR =>
      inferInstanceAs (Decidable (if amount = 0 then carry = false ∧ value.toNat < 2
        else ∀ i < amount, value.getLsbD i = value.msb))
  | ROR => inferInstanceAs (Decidable (amount = 0 → carry = false ∧ value.toNat < 4))

section Zero

variable (value : BitVec 32) (carry : Bool)

theorem ushiftRight_one_eq_zero_iff : value >>> 1 = 0 ↔ value.toNat < 2 := by
  rw [← BitVec.toNat_inj, BitVec.toNat_ushiftRight, Nat.shiftRight_eq_div_pow]
  change value.toNat / 2 = 0 ↔ _
  omega

/-- LSR by 32 leaves nothing. -/
theorem truthRrx_eq_zero_iff : truthRrx value carry = 0 ↔ carry = false ∧ value.toNat < 2 := by
  rw [truthRrx, ← ushiftRight_one_eq_zero_iff, ite_eq_right_iff]
  cases carry <;> by_cases none : value >>> 1 = 0 <;> simp [none]

/-- ASR by 32 leaves the sign everywhere, and a word with its sign set gives the truth value 1. -/
theorem truthRrx_eq_sign_iff
    : truthRrx value carry = value.sshiftRight 32 ↔ carry = false ∧ value.toNat < 2 := by
  rw [sshiftRight_of_le value (Nat.le_refl 32)]
  cases sign : value.msb with
  | false => exact truthRrx_eq_zero_iff value carry
  | true =>
      have large := BitVec.toNat_ge_of_msb_true sign
      refine iff_of_false (fun ones => ?_) fun small => by omega
      rw [truthRrx, if_pos rfl] at ones
      split at ones <;> exact absurd ones (by decide)

/-- A rotation through the set carry has its top bit set. Through the clear one it is the word
shifted, which is a truth value below 4.
-/
theorem truthRrx_eq_rrx_iff
    : truthRrx value carry = putBit (value >>> 1) 31 carry ↔ carry = false ∧ value.toNat < 4 := by
  cases carry with
  | true =>
      refine iff_of_false (fun same => ?_) fun clear => Bool.noConfusion clear.1
      have bit := congrArg (fun x : BitVec 32 => x.getLsbD 31) same
      rw [getLsbD_putBit, if_pos (by decide), truthRrx, if_pos (.inl rfl)] at bit
      exact absurd bit (by decide)
  | false =>
      have top : (value >>> 1).getLsbD 31 = false := by
        rw [BitVec.getLsbD_ushiftRight]
        exact BitVec.getLsbD_of_ge _ _ (by decide)
      rw [(putBit_eq_self_iff _ 31 false (by decide)).mpr top, truthRrx]
      by_cases none : value >>> 1 = 0
      · have small := (ushiftRight_one_eq_zero_iff value).mp none
        rw [if_neg fun either => either.elim Bool.false_ne_true fun some => some none, none]
        exact iff_of_true rfl ⟨rfl, by omega⟩
      · have large := mt (ushiftRight_one_eq_zero_iff value).mpr none
        rw [if_pos (.inr none), ← BitVec.toNat_inj, BitVec.toNat_ushiftRight,
          Nat.shiftRight_eq_div_pow]
        change 1 = value.toNat / 2 ↔ _
        simp only [true_and]
        omega

end Zero

/-- Which scaled offsets are right. Witness: one case for each kind; a rotation is a shift when
the bits that come around are those that the shift puts in.
-/
theorem codeScaled_iff (kind : ShiftKind) (value : BitVec 32) {amount : Nat} (small : amount < 32)
    (carry : Bool)
    : codeScaled kind value amount carry = kind.byImmediate value amount carry
      ↔ ScaledOffsetExact kind value amount carry := by
  cases kind with
  | LSL => exact iff_true_intro rfl
  | LSR =>
      simp only [codeScaled, byImmediate, ScaledOffsetExact]
      split
      · exact truthRrx_eq_zero_iff value carry
      · exact rotateRight_eq_ushiftRight_iff value small
  | ASR =>
      simp only [codeScaled, byImmediate, ScaledOffsetExact]
      split
      · exact truthRrx_eq_sign_iff value carry
      · rw [eq_comm]
        exact sshiftRight_eq_rotateRight_iff value small
  | ROR =>
      simp only [codeScaled, byImmediate, ScaledOffsetExact]
      split
      · next none =>
          exact (truthRrx_eq_rrx_iff value carry).trans (by simp only [none, true_imp_iff])
      · next some => exact iff_of_true rfl fun none => absurd none some

/-- The index of a register-offset load or store, on every host. -/
theorem loadStoreIndex_scaled (host : Host) {p : ArmCore} {ins : BitVec 32}
    (scaled : ins.getLsbD 25 = true) (passes : conditionPassed (armReadCpsr p) ins)
    : loadStoreIndex host p ins
      = codeScaled (decode ins) (armReadRegister p ((ins.extractLsb' 0 4).setWidth 8))
          (ins.extractLsb' 7 5).toNat ((armReadCpsr p).getLsbD CpsrBit.C) := by
  have always : getBit ins 24 = 1 ∨ (getBit ins 24 = 0 ∧ conditionPassed (armReadCpsr p) ins) :=
    (getBit_cases ins 24).symm.imp_right fun clear => ⟨clear, passes⟩
  have register : getBit ins 25 ≠ 0 := (getBit_ne_zero_iff ins 25).mpr scaled
  have bound := (ins.extractLsb' 7 5).isLt
  have amount
      : ((getBits ins 11 7).setWidth 16 : BitVec 16).toNat = (ins.extractLsb' 7 5).toNat := by
    rw [getBits_eq]
    change (((ins.extractLsb' 7 5).setWidth 32).setWidth 16).toNat = _
    simp only [BitVec.toNat_setWidth]
    omega
  have rm : (((getBits ins 3 0).setWidth 16 : BitVec 16).setWidth 8 : BitVec 8)
      = (ins.extractLsb' 0 4).setWidth 8 := by
    rw [BitVec.setWidth_setWidth_of_le _ (by decide)]
    exact getBits_registerField ins 0
  have index := scaledIndex_eq host p (decode ins) ((getBits ins 11 7).setWidth 16)
    ((getBits ins 3 0).setWidth 16) (by omega)
  rw [rm, amount] at index
  simp only [loadStoreIndex, if_pos always, if_neg register, getBits_shiftNumber, index]

/-- The index of a register-offset load or store is the architecture's scaled offset exactly for
the register values, amounts and carries of `ScaledOffsetExact`, on every host.
-/
theorem loadStoreIndex_scaled_iff (host : Host) (p : ArmCore) (ins : BitVec 32)
    (scaled : ins.getLsbD 25 = true) (passes : conditionPassed (armReadCpsr p) ins)
    : loadStoreIndex host p ins = scaledOffset p ins
      ↔ ScaledOffsetExact (decode ins) (armReadRegister p ((ins.extractLsb' 0 4).setWidth 8))
          (ins.extractLsb' 7 5).toNat ((armReadCpsr p).getLsbD CpsrBit.C) := by
  rw [loadStoreIndex_scaled host scaled passes, scaledOffset]
  exact codeScaled_iff _ _ (ins.extractLsb' 7 5).isLt _

/-- LDR r0, [r2, r3, LSR #1] with 2 in r3 has the index 1. -/
theorem lsrOne_even_scaled
    : loadStoreIndex (.plain .little) (twoOperands 0 2) 0xE79200A3
      = scaledOffset (twoOperands 0 2) 0xE79200A3 :=
  (loadStoreIndex_scaled_iff (.plain .little) (twoOperands 0 2) 0xE79200A3 (by decide)
    (by decide +kernel)).mpr (by decide +kernel)

/-- LDR r0, [r2, r3, LSR #1] with 1 in r3 rotates: the index is 0x80000000 instead of 0. -/
theorem lsrOne_odd_rotates
    : (0xE79200A3 : BitVec 32).getLsbD 25 = true
      ∧ (0xE79200A3 : BitVec 32).getLsbD 4 = false
      ∧ conditionPassed (armReadCpsr (twoOperands 0 1)) 0xE79200A3 = true
      ∧ loadStoreIndex (.plain .little) (twoOperands 0 1) 0xE79200A3 = 0x80000000
      ∧ scaledOffset (twoOperands 0 1) 0xE79200A3 = 0 := by
  decide +kernel

end Armator
