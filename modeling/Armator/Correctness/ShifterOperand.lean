import Armator.Architecture.ShifterOperand
import Armator.Correctness.DataProcessingResults

/-! The operand that `decode_operand` computes, and when it is the architecture's.
A result is only the architecture's when it is so on every host, whatever the host gives for
the shifts that C leaves undefined.
-/

namespace Armator

open Bits ShiftKind

/-- A field of up to eight bits, as the source takes it into a `uint8_t`. -/
theorem field8_eq (x : BitVec 32) (l k : Nat) (fits : k ≤ 8)
    : ((x >>> l) &&& BitVec.ofNat 32 (2 ^ k - 1)).setWidth 8
      = (x.extractLsb' l k).setWidth 8 := by
  apply BitVec.eq_of_toNat_eq
  rw [BitVec.toNat_setWidth, BitVec.toNat_setWidth,
    toNat_ushiftRight_and_mask x l k (by omega)]

/-- A field of up to eight bits keeps its number in a `uint8_t`. -/
theorem toNat_field8 (x : BitVec 32) (l k : Nat) (fits : k ≤ 8)
    : ((x.extractLsb' l k).setWidth 8 : BitVec 8).toNat = (x.extractLsb' l k).toNat :=
  BitVec.toNat_setWidth_of_le fits

/-- The mask on the shift type keeps bit 6 and drops bit 5. -/
theorem shiftField_eq (ins : BitVec 32)
    : (((ins >>> 5) &&& 2).setWidth 8 : BitVec 8)
      = if ins.getLsbD 6 then ShiftType.ASR else ShiftType.LSL := by
  apply BitVec.eq_of_getLsbD_eq
  intro i hi
  simp only [BitVec.getLsbD_setWidth, BitVec.getLsbD_and, BitVec.getLsbD_ushiftRight]
  split
  all_goals interval_cases i <;> simp_all

/-- What the code does for each kind of shift: LSR is done as LSL, and ROR as ASR. -/
def codeShift (host : Host) (kind : ShiftKind) (value : BitVec 32) (amount : BitVec 8)
    : BitVec 32 :=
  match kind with
  | LSL | LSR => host.shl value amount.toNat
  | ASR | ROR => asr host value amount

theorem applyShift_eq (host : Host) (ins value : BitVec 32) (amount : BitVec 8)
    : applyShift host (((ins >>> 5) &&& 2).setWidth 8) value amount
      = codeShift host (decode ins) value amount := by
  rw [shiftField_eq, decode]
  cases ins.getLsbD 6 <;> cases ins.getLsbD 5 <;> rfl

theorem shl_of_lt (host : Host) (value : BitVec 32) {n : Nat} (inside : n < 32)
    : host.shl value n = value <<< n := by
  have range : 0 ≤ (n : Int) ∧ (n : Int) < 32 := by omega
  rw [Host.shl, if_pos range, Int.toNat_natCast]

theorem shr_of_lt (host : Host) (value : BitVec 32) {n : Nat} (inside : n < 32)
    : host.shr value n = value >>> n := by
  have range : 0 ≤ (n : Int) ∧ (n : Int) < 32 := by omega
  rw [Host.shr, if_pos range, Int.toNat_natCast]

theorem shl_forall_iff (value target : BitVec 32) {n : Nat} (inside : n < 32)
    : (∀ host : Host, host.shl value n = target) ↔ value <<< n = target := by
  simp only [shl_of_lt _ value inside]
  exact ⟨fun same => same (.plain .little), fun same _ => same⟩

/-- A left shift by 32 or more is what the host makes of it, so it is nothing in
particular.
-/
theorem shl_beyond (value : BitVec 32) {n : Nat} (beyond : 32 ≤ n) (target : BitVec 32)
    : ¬ ∀ host : Host, host.shl value n = target := by
  intro same
  have range : ¬ (0 ≤ (n : Int) ∧ (n : Int) < 32) := by omega
  have zero := same (.constant .little 0)
  have one := same (.constant .little 1)
  simp only [Host.shl, range, if_false, Host.constant] at zero one
  exact absurd (zero.trans one.symm) (by decide)

/-- The source's sign test. -/
theorem getBit_msb_iff (value : BitVec 32) : getBit value 31 ≠ 0 ↔ value.msb = true := by
  rw [ne_eq, BitVec.ofNat_eq_ofNat, getBit_eq_zero_iff, BitVec.msb_eq_getLsbD_last,
    Bool.not_eq_false]

/-- By 1 to 31 bits the source's `asr` is the shift with sign, on every host. -/
theorem asr_of_lt (host : Host) (value : BitVec 32) (amount : BitVec 8)
    (positive : 0 < amount.toNat) (inside : amount.toNat < 32)
    : asr host value amount = value.sshiftRight amount.toNat := by
  have count : (32 - amount.toNat : Int) = (32 - amount.toNat : Nat) := by omega
  rw [asr, shr_of_lt host value inside, count, shl_of_lt host _ (by omega)]
  apply BitVec.eq_of_getLsbD_eq
  intro i hi
  have ones : ((~~~0#32) <<< (32 - amount.toNat)).getLsbD i = !decide (amount.toNat + i < 32) := by
    rw [BitVec.getLsbD_shiftLeft, BitVec.getLsbD_not, Bool.eq_iff_iff]
    simp only [hi, BitVec.getLsbD_zero, Bool.and_eq_true, decide_eq_true_eq, Bool.not_eq_true',
      decide_eq_false_iff_not, Bool.not_false, true_and, and_true]
    omega
  rw [BitVec.getLsbD_sshiftRight, BitVec.getLsbD_or, BitVec.getLsbD_ushiftRight]
  have gone : ¬ amount.toNat + i < 32 → value.getLsbD (amount.toNat + i) = false :=
    fun leaves => BitVec.getLsbD_of_ge _ _ (by omega)
  by_cases sign : value.msb = true
  · rw [if_pos ((getBit_msb_iff value).mpr sign), BitVec.ofNat_eq_ofNat, ones, sign]
    by_cases stays : amount.toNat + i < 32 <;> simp [stays, gone, hi]
  · rw [if_neg fun test => sign ((getBit_msb_iff value).mp test)]
    by_cases stays : amount.toNat + i < 32 <;> simp [stays, gone, hi, sign]

theorem asr_forall_iff (value target : BitVec 32) (amount : BitVec 8)
    (positive : 0 < amount.toNat) (inside : amount.toNat < 32)
    : (∀ host, asr host value amount = target)
      ↔ value.sshiftRight amount.toNat = target := by
  simp only [asr_of_lt _ value amount positive inside]
  exact ⟨fun same => same (.plain .little), fun same _ => same⟩

/-- By 0 bits the source shifts its ones left by 32 when the sign is set. -/
theorem asr_zero_iff (value target : BitVec 32)
    : (∀ host, asr host value 0 = target)
      ↔ value = target ∧ (value.msb = true → value = BitVec.allOnes 32) := by
  have unfolded (host : Host)
      : asr host value 0
        = value ||| (if value.msb = true then host.shlBeyond (~~~0) 32 else 0) := by
    simp only [asr, ← getBit_msb_iff]
    rfl
  simp only [unfolded]
  constructor
  · intro same
    have zero := same (.constant .little 0)
    have ones := same (.constant .little (BitVec.allOnes 32))
    simp only [Host.constant, ite_self, BitVec.ofNat_eq_ofNat, BitVec.or_zero] at zero ones
    refine ⟨zero, fun sign => ?_⟩
    rw [if_pos sign, BitVec.or_allOnes] at ones
    rw [zero, ones]
  · rintro ⟨rfl, constant⟩ host
    split
    · next sign => rw [constant sign, BitVec.allOnes_or]
    · exact BitVec.or_zero

/-- By 32 bits the source's right shift is undefined, but all ones cover it. -/
theorem asr_thirtyTwo_iff (value target : BitVec 32) (amount : BitVec 8)
    (isWidth : amount.toNat = 32)
    : (∀ host, asr host value amount = target)
      ↔ value.msb = true ∧ target = BitVec.allOnes 32 := by
  have unfolded (host : Host)
      : asr host value amount
        = host.shrBeyond value 32 ||| (if value.msb = true then BitVec.allOnes 32 else 0) := by
    simp only [asr, ← getBit_msb_iff, isWidth]
    rfl
  simp only [unfolded]
  constructor
  · intro same
    have zero := same (.constant .little 0)
    have one := same (.constant .little 1)
    simp only [Host.constant, BitVec.ofNat_eq_ofNat, BitVec.zero_or] at zero one
    by_cases sign : value.msb = true
    · rw [if_pos sign] at zero
      exact ⟨sign, zero.symm⟩
    · rw [if_neg sign] at zero one
      exact absurd (zero.trans one.symm) (by decide)
  · rintro ⟨sign, rfl⟩ host
    rw [if_pos sign, BitVec.or_allOnes]

/-- By more than 32 bits both shifts are undefined. -/
theorem asr_beyond (value target : BitVec 32) (amount : BitVec 8) (beyond : 32 < amount.toNat)
    : ¬ ∀ host, asr host value amount = target := by
  intro same
  have right : ¬ (0 ≤ (amount.toNat : Int) ∧ (amount.toNat : Int) < 32) := by omega
  have left : ¬ (0 ≤ (32 - amount.toNat : Int) ∧ (32 - amount.toNat : Int) < 32) := by omega
  have zero := same (.constant .little 0)
  have one := same (.constant .little 1)
  simp only [asr, Host.shr, Host.shl, right, left, if_false, Host.constant, ite_self,
    BitVec.or_self] at zero one
  rw [← zero] at one
  split at one <;> exact absurd one (by decide)

/-- When the code's shift by an immediate is the architecture's. -/
def ImmediateShiftExact (kind : ShiftKind) (value : BitVec 32) (amount : Nat) (carry : Bool)
    : Prop :=
  match kind with
  | LSL => True
  | LSR => if amount = 0 then value = 0 else LeftIsRight value amount
  | ASR => amount = 0 → value = 0 ∨ value = BitVec.allOnes 32
  | ROR =>
      if amount = 0 then value = if carry then BitVec.allOnes 32 else 0#32
      else ∀ i < amount, value.getLsbD i = value.msb

/-- When the code's shift by a register amount is the architecture's. -/
def RegisterShiftExact (kind : ShiftKind) (value : BitVec 32) (amount : Nat) : Prop :=
  match kind with
  | LSL => amount < 32
  | LSR => amount < 32 ∧ LeftIsRight value amount
  | ASR =>
      if amount = 0 then value.msb = true → value = BitVec.allOnes 32
      else amount < 32 ∨ (amount = 32 ∧ value.msb = true)
  | ROR =>
      if amount = 0 then value.msb = true → value = BitVec.allOnes 32
      else
        (amount < 32 ∧ ∀ i < amount, value.getLsbD i = value.msb)
        ∨ (amount = 32 ∧ value = BitVec.allOnes 32)

/-- Which shifts by an immediate are right on every host. Witness: one case for each kind;
a shift by 0 stands for another shift than the code's, save for LSL.
-/
theorem codeShift_byImmediate_iff (kind : ShiftKind) (value : BitVec 32) (amount : BitVec 8)
    (small : amount.toNat < 32) (carry : Bool)
    : (∀ host, codeShift host kind value amount = kind.byImmediate value amount.toNat carry)
      ↔ ImmediateShiftExact kind value amount.toNat carry := by
  have zero (none : amount.toNat = 0) : amount = 0 := BitVec.eq_of_toNat_eq none
  cases kind with
  | LSL => exact (shl_forall_iff value _ small).trans (iff_true_intro rfl)
  | LSR =>
      refine (shl_forall_iff value _ small).trans ?_
      simp only [byImmediate, ImmediateShiftExact]
      split
      · next none => rw [none, BitVec.shiftLeft_zero, BitVec.ofNat_eq_ofNat]
      · next some => exact shiftLeft_eq_ushiftRight_iff value small
  | ASR =>
      simp only [codeShift, byImmediate, ImmediateShiftExact]
      by_cases none : amount.toNat = 0
      · simp only [none, if_true, true_implies]
        rw [zero none, asr_zero_iff, sshiftRight_of_le value (Nat.le_refl 32)]
        cases sign : value.msb with
        | true =>
            simp only [if_true, true_implies, and_self]
            refine ⟨Or.inr, fun constant => constant.resolve_left ?_⟩
            rintro rfl
            exact absurd sign (by decide)
        | false =>
            simp only [Bool.false_eq_true, if_false, false_implies, and_true]
            refine ⟨Or.inl, fun constant => constant.resolve_right ?_⟩
            rintro rfl
            exact absurd sign (by decide)
      · simp only [none, if_false, false_implies, iff_true]
        exact fun host => asr_of_lt host value amount (by omega) small
  | ROR =>
      simp only [codeShift, byImmediate, ImmediateShiftExact]
      by_cases none : amount.toNat = 0
      · simp only [none, if_true]
        rw [zero none, asr_zero_iff, eq_putBit_ushiftRight_one_iff value (by decide)]
        refine and_iff_left_of_imp ?_
        cases carry with
        | true => exact fun constant _ => constant
        | false =>
            rintro rfl sign
            exact absurd sign (by decide)
      · simp only [none, if_false]
        rw [asr_forall_iff value _ amount (by omega) small,
          sshiftRight_eq_rotateRight_iff value small]

/-- A right shift with sign by 0 leaves the word, unless the host's ones show. -/
theorem asr_zero_self_iff (value : BitVec 32)
    : (∀ host, asr host value 0 = value)
      ↔ (value.msb = true → value = BitVec.allOnes 32) := by
  rw [asr_zero_iff, eq_self, true_and]

/-- Which shifts by a register amount are right on every host. Witness: from 32 on the code
leaves the result to the host, except for words that all ones cover.
-/
theorem codeShift_byRegister_iff (kind : ShiftKind) (value : BitVec 32) (amount : BitVec 8)
    : (∀ host, codeShift host kind value amount = kind.byRegister value amount.toNat)
      ↔ RegisterShiftExact kind value amount.toNat := by
  have zero (none : amount.toNat = 0) : amount = 0 := BitVec.eq_of_toNat_eq none
  cases kind with
  | LSL =>
      rcases Nat.lt_or_ge amount.toNat 32 with inside | beyond
      · exact (shl_forall_iff value _ inside).trans (iff_of_true rfl inside)
      · exact iff_of_false (shl_beyond value beyond _) (Nat.not_lt.mpr beyond)
  | LSR =>
      rcases Nat.lt_or_ge amount.toNat 32 with inside | beyond
      · refine (shl_forall_iff value _ inside).trans ?_
        simp only [byRegister, RegisterShiftExact, inside, true_and]
        exact shiftLeft_eq_ushiftRight_iff value inside
      · refine iff_of_false (shl_beyond value beyond _) ?_
        rintro ⟨inside, -⟩
        omega
  | ASR =>
      simp only [codeShift, byRegister, RegisterShiftExact]
      rcases Nat.eq_zero_or_pos amount.toNat with none | positive
      · rw [if_pos none, none, zero none, BitVec.sshiftRight_zero, asr_zero_self_iff]
      rw [if_neg (by omega)]
      rcases Nat.lt_trichotomy amount.toNat 32 with inside | width | beyond
      · exact (asr_forall_iff value _ amount positive inside).trans
          (iff_of_true rfl (.inl inside))
      · rw [asr_thirtyTwo_iff value _ amount width, width,
          sshiftRight_of_le value (Nat.le_refl 32)]
        simp only [Nat.lt_irrefl, true_and, false_or, and_iff_left_iff_imp]
        exact fun sign => if_pos sign
      · refine iff_of_false (asr_beyond value _ amount beyond) ?_
        rintro (inside | ⟨width, -⟩) <;> omega
  | ROR =>
      simp only [codeShift, byRegister, RegisterShiftExact]
      rcases Nat.eq_zero_or_pos amount.toNat with none | positive
      · rw [if_pos none, none, zero none, rotateRight_zero, asr_zero_self_iff]
      rw [if_neg (by omega)]
      rcases Nat.lt_trichotomy amount.toNat 32 with inside | width | beyond
      · rw [asr_forall_iff value _ amount positive inside,
          sshiftRight_eq_rotateRight_iff value inside]
        simp only [inside, true_and, Nat.ne_of_lt inside, false_and, or_false]
      · rw [asr_thirtyTwo_iff value _ amount width, width, ← BitVec.rotateRight_mod_eq_rotateRight,
          Nat.mod_self, rotateRight_zero]
        simp only [Nat.lt_irrefl, false_and, true_and, false_or, and_iff_right_iff_imp]
        rintro rfl
        decide
      · refine iff_of_false (asr_beyond value _ amount beyond) ?_
        rintro (⟨inside, -⟩ | ⟨width, -⟩) <;> omega

/-- What `apply_rotation_imm` does with its two fields. -/
def codeRotation (host : Host) (immediate : BitVec 8) (rotation : Nat) : BitVec 32 :=
  if rotation ≠ 0 then
    host.shr (immediate.setWidth 32) (rotation * 2) |||
      host.shl (immediate.setWidth 32) (8 - rotation * 2)
  else immediate.setWidth 32

theorem applyRotationImm_eq (host : Host) (ins : BitVec 32)
    : applyRotationImm host ins
      = codeRotation host (ins.extractLsb' 0 8) (ins.extractLsb' 8 4).toNat := by
  have rotation : (((ins &&& 0xf00) >>> 8).setWidth 8 : BitVec 8)
      = (ins.extractLsb' 8 4).setWidth 8 := by
    rw [BitVec.ushiftRight_and_distrib]
    exact field8_eq ins 8 4 (by decide)
  have immediate : ((ins &&& 0xff).setWidth 8 : BitVec 8) = ins.extractLsb' 0 8 := by
    rw [← BitVec.setWidth_eq (ins.extractLsb' 0 8), ← field8_eq ins 0 8 (by decide),
      BitVec.ushiftRight_zero]
    rfl
  have isZero : (ins.extractLsb' 8 4).setWidth 8 ≠ (0 : BitVec 8)
      ↔ (ins.extractLsb' 8 4).toNat ≠ 0 := by
    rw [← toNat_field8 ins 8 4 (by decide), ne_eq, ne_eq, ← BitVec.toNat_inj]
    rfl
  simp only [applyRotationImm, codeRotation, rotation, immediate, isZero,
    toNat_field8 ins 8 4 (by decide)]

/-- The rotation in eight bits is the one in 32 bits only when there is nothing to rotate.
Witness: rotations by 2 to 8 differ on every immediate but 0; beyond, the left shift has a
negative count.
-/
theorem codeRotation_iff (immediate : BitVec 8) {rotation : Nat} (field : rotation < 16)
    : (∀ host,
        codeRotation host immediate rotation
          = (immediate.setWidth 32).rotateRight (2 * rotation))
      ↔ rotation = 0 ∨ (immediate = 0 ∧ rotation ≤ 4) := by
  rcases Nat.eq_zero_or_pos rotation with none | positive
  · refine iff_of_true (fun host => ?_) (.inl none)
    rw [codeRotation, none, Nat.mul_zero, rotateRight_zero]
    rfl
  have right (host : Host) := shr_of_lt host (immediate.setWidth 32)
    (show rotation * 2 < 32 by omega)
  push_cast at right
  rcases Nat.lt_or_ge 4 rotation with beyond | within
  · refine iff_of_false (fun same => ?_) (by omega)
    have negative : ¬ (0 ≤ (8 - rotation * 2 : Int) ∧ (8 - rotation * 2 : Int) < 32) := by omega
    have zero := same (.constant .little 0)
    have ones := same (.constant .little (BitVec.allOnes 32))
    rw [← ones] at zero
    simp only [codeRotation, ne_eq, Nat.ne_of_gt positive, not_false_eq_true, if_true, right,
      Host.shl, negative, if_false, Host.constant, BitVec.ofNat_eq_ofNat, BitVec.or_zero,
      BitVec.or_allOnes] at zero
    have value := congrArg BitVec.toNat zero
    rw [BitVec.toNat_ushiftRight, Nat.shiftRight_eq_div_pow, BitVec.toNat_setWidth,
      BitVec.toNat_allOnes] at value
    have bound := immediate.isLt
    have quotient := Nat.div_le_self (immediate.toNat % 2 ^ 32) (2 ^ (rotation * 2))
    omega
  · have left (host : Host) : host.shl (immediate.setWidth 32) (8 - rotation * 2)
        = immediate.setWidth 32 <<< (8 - rotation * 2) := by
      rw [← shl_of_lt host _ (by omega)]
      congr 1
      omega
    have value (host : Host)
        : codeRotation host immediate rotation
          = (immediate.setWidth 32 : BitVec 32) >>> (rotation * 2)
            ||| immediate.setWidth 32 <<< (8 - rotation * 2) := by
      rw [codeRotation, if_pos (Nat.ne_of_gt positive), right, left]
    have differs : ∀ r ∈ [1, 2, 3, 4], ∀ x : BitVec 8,
        (x.setWidth 32 : BitVec 32) >>> (r * 2) ||| x.setWidth 32 <<< (8 - r * 2)
            = (x.setWidth 32).rotateRight (2 * r)
          ↔ x = 0 := by
      decide +kernel
    have member : rotation ∈ [1, 2, 3, 4] := by
      interval_cases rotation <;> decide
    simp only [value, differs rotation member immediate, Nat.ne_of_gt positive, within,
      false_or, and_true]
    exact ⟨fun same => same (.plain .little), fun same _ => same⟩

/-- The states and words for which the operand comes out right: rotation by 0, shifts of the
kinds LSL and ASR inside their range, and operands that the wrong shift does not change.
-/
def ShifterOperandExact (p : ArmCore) (ins : BitVec 32) : Prop :=
  if ins.getLsbD 25 then
    let rotation := (ins.extractLsb' 8 4).toNat
    rotation = 0 ∨ (ins.extractLsb' 0 8 = 0 ∧ rotation ≤ 4)
  else
    let kind := ShiftKind.decode ins
    let value := armReadRegister p ((ins.extractLsb' 0 4).setWidth 8)
    if ins.getLsbD 4 then
      let source := armReadRegister p ((ins.extractLsb' 8 4).setWidth 8)
      RegisterShiftExact kind value (source.extractLsb' 0 8).toNat
    else
      ImmediateShiftExact kind value (ins.extractLsb' 7 5).toNat
        ((armReadCpsr p).getLsbD CpsrBit.C)

/-- The operand the code computes, from the architecture's fields. -/
def codeOperand (host : Host) (p : ArmCore) (ins : BitVec 32) : BitVec 32 :=
  if ins.getLsbD 25 then
    codeRotation host (ins.extractLsb' 0 8) (ins.extractLsb' 8 4).toNat
  else
    let kind := ShiftKind.decode ins
    let value := armReadRegister p ((ins.extractLsb' 0 4).setWidth 8)
    if ins.getLsbD 4 then
      let source := armReadRegister p ((ins.extractLsb' 8 4).setWidth 8)
      codeShift host kind value (source.extractLsb' 0 8)
    else codeShift host kind value ((ins.extractLsb' 7 5).setWidth 8)

/-- A word is refused in its register form with bits 7 and 4 set; else the operand is
`codeOperand`.
-/
theorem decodeOperand_accepted (host : Host) (p : ArmCore) (ins : BitVec 32)
    (accepted : (decodeOperand host p ins).1 = 0)
    : (decodeOperand host p ins).2.2 = codeOperand host p ins := by
  have set25 : (getBit ins 25).setWidth 8 = (1 : BitVec 8) ↔ ins.getLsbD 25 = true := by
    rw [getBit_eq]
    cases ins.getLsbD 25 <;> decide
  have clear4 : (getBit ins 4).setWidth 8 = (0 : BitVec 8) ↔ ins.getLsbD 4 = false :=
    getBit_setWidth_eq_zero_iff ins 4
  have rm : ((ins &&& 0xf).setWidth 8 : BitVec 8) = (ins.extractLsb' 0 4).setWidth 8 := by
    rw [← field8_eq ins 0 4 (by decide), BitVec.ushiftRight_zero]
    rfl
  have rs : (((ins >>> 8) &&& 0xf).setWidth 8 : BitVec 8)
      = (ins.extractLsb' 8 4).setWidth 8 :=
    field8_eq ins 8 4 (by decide)
  have immediate : (((ins >>> 7) &&& 31).setWidth 8 : BitVec 8)
      = (ins.extractLsb' 7 5).setWidth 8 :=
    field8_eq ins 7 5 (by decide)
  have low (x : BitVec 32) : (x.setWidth 8 : BitVec 8) = x.extractLsb' 0 8 := by
    apply BitVec.eq_of_toNat_eq
    rw [BitVec.toNat_setWidth, BitVec.extractLsb'_toNat, Nat.shiftRight_zero]
  simp only [decodeOperand, set25, clear4, rm, rs, immediate, applyRotationImm_eq,
    applyShift_eq, low (armReadRegister p _), codeOperand] at accepted ⊢
  by_cases is25 : ins.getLsbD 25 = true
  · simp only [is25, if_true]
  simp only [is25, Bool.false_eq_true, if_false] at accepted ⊢
  by_cases is4 : ins.getLsbD 4 = true
  · simp only [is4, Bool.true_eq_false, if_false, if_true] at accepted ⊢
    split at accepted
    · next accepts => rw [if_pos accepts]
    · exact absurd accepted (show ¬ (-1 : Int) = 0 by decide)
  · simp only [is4, if_true, Bool.false_eq_true, if_false]

/-- The second operand is the architecture's on every host exactly on the states and words of
`ShifterOperandExact`. Witness: the three forms of the operand.
-/
theorem decodeOperand_exact_iff (p : ArmCore) (ins : BitVec 32)
    (accepted : ∀ host, (decodeOperand host p ins).1 = 0)
    : (∀ host, (decodeOperand host p ins).2.2 = shifterOperand p ins)
      ↔ ShifterOperandExact p ins := by
  simp only [decodeOperand_accepted _ p ins (accepted _)]
  unfold codeOperand shifterOperand ShifterOperandExact
  by_cases is25 : ins.getLsbD 25 = true
  · simp only [is25, if_true]
    exact codeRotation_iff _ (ins.extractLsb' 8 4).isLt
  by_cases is4 : ins.getLsbD 4 = true
  · simp only [is25, is4, if_true, Bool.false_eq_true, if_false]
    exact codeShift_byRegister_iff _ _ _
  · have amount := toNat_field8 ins 7 5 (by decide)
    have small : ((ins.extractLsb' 7 5).setWidth 8 : BitVec 8).toNat < 32 :=
      amount ▸ (ins.extractLsb' 7 5).isLt
    simp only [is25, is4, Bool.false_eq_true, if_false, ← amount]
    exact codeShift_byImmediate_iff _ _ _ small _

/-- MOV r1, r3, ASR #4 gets its operand. -/
theorem asrImmediate_exact
    : (decodeOperand (.plain .little) (twoOperands 0 0x80000010) 0xE1A01243).2.2
      = shifterOperand (twoOperands 0 0x80000010) 0xE1A01243 :=
  (decodeOperand_exact_iff (twoOperands 0 0x80000010) 0xE1A01243 fun _ => rfl).mpr
    (fun none => absurd none (by decide)) (.plain .little)

/-- MOV r1, r3, LSR #1 with 2 in r3 shifts left: the operand is 4 on every host. -/
theorem lsrImmediate_shiftsLeft
    : (∀ host, (decodeOperand host (twoOperands 0 2) 0xE1A010A3).1 = 0)
      ∧ ∀ host,
          (decodeOperand host (twoOperands 0 2) 0xE1A010A3).2.2
            ≠ shifterOperand (twoOperands 0 2) 0xE1A010A3 := by
  refine ⟨fun _ => rfl, fun host same => ?_⟩
  have code : (decodeOperand host (twoOperands 0 2) 0xE1A010A3).2.2 = 4 := rfl
  rw [code] at same
  revert same
  decide +kernel

end Armator
