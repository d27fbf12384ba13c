import Armator.Correctness.Dispatch
import Armator.Correctness.ShifterOperand
import Armator.Simulator.ShiftCounts

/-! Which instructions shift by counts that C defines. -/

namespace Armator

open Traced

-----------------------------------------------------------------------------------------
-- Results
-----------------------------------------------------------------------------------------

/-- The result of a computation without its counts. Nothing stops it. -/
def Counted.value {α : Type} (x : Counted α) : α :=
  match (x ()).result with
  | .ok (a, _) => a
  | .error reason => reason.elim

namespace Counted

section Values

variable {α β : Type} (host : Host) (p : ArmCore)

@[simp]
theorem value_pure (a : α) : (pure a : Counted α).value = a := rfl

@[simp]
theorem value_bind (x : Counted α) (f : α → Counted β) : (x >>= f).value = (f x.value).value := by
  change Counted.value (andThen x f) = _
  unfold Counted.value andThen
  cases (x ()).result with
  | ok ended => rfl
  | error reason => exact reason.elim

@[simp]
theorem value_ite (c : Prop) [Decidable c] (x y : Counted α)
    : (if c then x else y).value = if c then x.value else y.value :=
  apply_ite Counted.value c x y

@[simp]
theorem value_shl (value : BitVec 32) (count : Int)
    : (shl host value count).value = host.shl value count := rfl

@[simp]
theorem value_shr (value : BitVec 32) (count : Int)
    : (shr host value count).value = host.shr value count := rfl

@[simp]
theorem value_asr (value : BitVec 32) (shift : BitVec 8)
    : (asr host value shift).value = Armator.asr host value shift := by
  simp only [asr, value_bind, value_ite, value_shr, value_shl, value_pure, Armator.asr]
  exact (apply_ite (host.shr value shift.toNat ||| ·) _ _ _).symm

@[simp]
theorem value_ror (value : BitVec 32) (rotation : BitVec 8)
    : (ror host value rotation).value = Armator.ror host value rotation := rfl

@[simp]
theorem value_applyRotationImm (ins : BitVec 32)
    : (applyRotationImm host ins).value = Armator.applyRotationImm host ins := by
  have field : host.shr (ins &&& 0xf00) 8 = (ins &&& 0xf00) >>> 8 := shr_of_lt host _ (by decide)
  rw [Armator.applyRotationImm, ← field]
  simp only [applyRotationImm, value_bind, value_ite, value_pure]
  rfl

@[simp]
theorem value_applyShift (shift : BitVec 8) (value : BitVec 32) (valShift : BitVec 8)
    : (applyShift host shift value valShift).value
      = Armator.applyShift host shift value valShift := by
  simp only [applyShift, value_ite, value_shl, value_shr, value_asr, value_ror, value_pure,
    Armator.applyShift]

@[simp]
theorem value_decodeOperand (ins : BitVec 32)
    : (decodeOperand host p ins).value = Armator.decodeOperand host p ins := by
  have low (i : Nat) (small : i < 32) : host.shr ins i = ins >>> i := shr_of_lt host ins small
  rw [Armator.decodeOperand, ← low 16 (by decide), ← low 5 (by decide), ← low 7 (by decide),
    ← low 8 (by decide)]
  simp only [decodeOperand, value_bind, value_ite, value_pure, value_applyRotationImm,
    value_applyShift]
  rfl

section ScaledCases

variable (value : BitVec 32) (shiftImm : BitVec 16)

@[simp]
theorem value_scaledLsr
    : (scaledLsr host value shiftImm).value
      = if shiftImm = 0 then 0 else host.shr value shiftImm.toNat :=
  value_ite _ _ _

@[simp]
theorem value_scaledAsr
    : (scaledAsr host value shiftImm).value
      = if shiftImm = 0 then if Armator.getBit value 31 = 1 then 0xFFFFFFFF else 0
        else Armator.asr host value (shiftImm.setWidth 8) := by
  simp only [scaledAsr, value_ite, value_bind, value_pure, value_asr]
  rfl

@[simp]
theorem value_scaledRor
    : (scaledRor host p value shiftImm).value
      = if shiftImm = 0 then
          if Armator.getBit (armReadCpsr p) CpsrBit.C <<< 31 ≠ 0 ∨ value >>> 1 ≠ 0 then 1 else 0
        else Armator.ror host value (shiftImm.setWidth 8) := by
  have left (x : BitVec 32) : host.shl x 31 = x <<< 31 := shl_of_lt host x (by decide)
  have right (x : BitVec 32) : host.shr x 1 = x >>> 1 := shr_of_lt host x (by decide)
  simp only [scaledRor, value_ite, value_bind, value_pure, value_ror, ← left, ← right]
  refine if_congr Iff.rfl ?_ rfl
  exact (ite_or _ _ _ _).symm

end ScaledCases

@[simp]
theorem value_scaledIndex (shift shiftImm rm : BitVec 16)
    : (scaledIndex host p shift shiftImm rm).value
      = Armator.scaledIndex host p shift shiftImm rm := by
  simp only [scaledIndex, value_ite, value_bind, value_pure, value_shl, value_scaledLsr,
    value_scaledAsr, value_scaledRor, Armator.scaledIndex]

/-- The offset that `arm_load_store` counts is the one that it uses. -/
theorem value_loadStoreIndex (ins : BitVec 32)
    : (loadStoreIndex host p ins).value = Armator.loadStoreIndex host p ins := by
  simp only [loadStoreIndex, value_ite, value_pure, value_scaledIndex, Armator.loadStoreIndex]

end Values

end Counted

/-- Whatever its counts, a call returns what the function without counts does. -/
theorem ShiftingCall.value_counted (call : ShiftingCall) (host : Host) (p : ArmCore)
    (ins : BitVec 32)
    : (call.counted host p ins).value = call.run host p ins := by
  cases call with
  | dataProcessingShift =>
      simp only [counted, run, Counted.value_ite, Counted.value_bind, Counted.value_pure,
        Counted.value_decodeOperand, armDataProcessingShift]
  | dataProcessingImmediateMsr unset => exact Counted.value_bind _ _
  | loadStore => exact Counted.value_bind _ _

-----------------------------------------------------------------------------------------
-- Counts
-----------------------------------------------------------------------------------------

/-- A count for which C defines the shift of a 32-bit value. -/
def DefinedCount (count : Int) : Prop :=
  0 ≤ count ∧ count < 32

/-- The call comes back with its result, and all its counts are defined. -/
def ShiftingCall.CountsDefined (call : ShiftingCall) (host : Host) (p : ArmCore) (ins : BitVec 32)
    : Prop :=
  Meets DefinedCount (fun _ => False) (fun out _ => out = call.run host p ins)
    (call.counted host p ins) ()

/-- The result is no condition: every call comes back with it. -/
theorem countsDefined_iff_events (call : ShiftingCall) (host : Host) (p : ArmCore)
    (ins : BitVec 32)
    : call.CountsDefined host p ins
      ↔ ∀ count ∈ (call.counted host p ins ()).events, DefinedCount count := by
  refine and_iff_left ?_
  have value := call.value_counted host p ins
  rw [Counted.value] at value
  cases result : (call.counted host p ins ()).result with
  | ok ended =>
      rw [result] at value
      exact value
  | error reason => exact reason.elim

/-- An immediate is rotated by at most 8 places: `8-rotation_imm*2` is not negative. -/
def SmallRotation (ins : BitVec 32) : Prop :=
  (ins.extractLsb' 8 4).toNat ≤ 4

/-- A register is shifted by less than 32, and by 0 only if it is shifted to the left or not
negative.
-/
def SmallShift (ins value : BitVec 32) (amount : Nat) : Prop :=
  amount < 32 ∧ (ins.getLsbD 6 = true → amount = 0 → value.getLsbD 31 = false)

/-- The shifts of `decode_operand` are small; with bits 4 and 7 it refuses the word. -/
def SmallOperand (p : ArmCore) (ins : BitVec 32) : Prop :=
  let value := armReadRegister p ((ins.extractLsb' 0 4).setWidth 8)
  let source := armReadRegister p ((ins.extractLsb' 8 4).setWidth 8)
  if ins.getLsbD 25 = true then SmallRotation ins
  else if ins.getLsbD 4 = false then SmallShift ins value (ins.extractLsb' 7 5).toNat
  else if ins.getLsbD 7 = false then SmallShift ins value (source.extractLsb' 0 8).toNat
  else True

/-- What the call needs for defined counts. -/
def ShiftingCall.Small (call : ShiftingCall) (p : ArmCore) (ins : BitVec 32) : Prop :=
  match call with
  | dataProcessingShift => conditionPassed (armReadCpsr p) ins → SmallOperand p ins
  | dataProcessingImmediateMsr _ => SmallRotation ins
  | loadStore => True

section Counts

variable {stopped : Empty → Prop} {host : Host}

section Primitives

variable {allowed : Int → Prop} {post : BitVec 32 → Unit → Prop} (value : BitVec 32)

theorem meets_shl (count : Int)
    : Meets allowed stopped post (Counted.shl host value count) ()
      ↔ allowed count ∧ post (host.shl value count) () := by
  simp only [Counted.shl, meets_bind, meets_log, meets_pure]

theorem meets_shr (count : Int)
    : Meets allowed stopped post (Counted.shr host value count) ()
      ↔ allowed count ∧ post (host.shr value count) () := by
  simp only [Counted.shr, meets_bind, meets_log, meets_pure]

theorem meets_getBit (i : Nat)
    : Meets allowed stopped post (Counted.getBit value i) ()
      ↔ allowed i ∧ post (getBit value i) () := by
  simp only [Counted.getBit, meets_bind, meets_log, meets_pure]

end Primitives

variable {post : BitVec 32 → Unit → Prop}

theorem definedCount_natCast (n : Nat) : DefinedCount n ↔ n < 32 := by
  rw [DefinedCount]
  omega

theorem meets_asr (value : BitVec 32) (shift : BitVec 8)
    : Meets DefinedCount stopped post (Counted.asr host value shift) ()
      ↔ (shift.toNat < 32 ∧ (shift.toNat = 0 → value.getLsbD 31 = false))
        ∧ post (asr host value shift) () := by
  have sign := getBit_ne_zero_iff value 31
  simp only [Counted.asr, meets_bind, meets_shr, meets_getBit, asr]
  by_cases negative : value.getLsbD 31 = true
  · rw [if_pos (sign.mpr negative), if_pos (sign.mpr negative), meets_bind, meets_shl, meets_pure,
      negative]
    simp only [DefinedCount, Bool.true_eq_false]
    constructor
    · rintro ⟨low, -, high, met⟩
      exact ⟨⟨by omega, fun zero => by omega⟩, met⟩
    · rintro ⟨⟨low, positive⟩, met⟩
      have nonzero : shift.toNat ≠ 0 := fun zero => positive zero
      exact ⟨by omega, by omega, by omega, met⟩
  · have plain : ¬ getBit value 31 ≠ 0 := fun test => negative (sign.mp test)
    rw [if_neg plain, if_neg plain, meets_bind, meets_pure, meets_pure,
      Bool.eq_false_of_not_eq_true negative]
    simp only [DefinedCount]
    constructor
    · rintro ⟨low, -, met⟩
      exact ⟨⟨by omega, fun _ => trivial⟩, met⟩
    · rintro ⟨⟨low, -⟩, met⟩
      exact ⟨by omega, by omega, met⟩

theorem meets_ror (value : BitVec 32) (rotation : BitVec 8)
    : Meets DefinedCount stopped post (Counted.ror host value rotation) ()
      ↔ (0 < rotation.toNat ∧ rotation.toNat < 32) ∧ post (ror host value rotation) () := by
  simp only [Counted.ror, meets_bind, meets_shr, meets_shl, meets_pure, DefinedCount, ror]
  constructor
  · rintro ⟨low, high, met⟩
    exact ⟨by omega, met⟩
  · rintro ⟨range, met⟩
    exact ⟨by omega, by omega, met⟩

theorem meets_applyRotationImm (ins : BitVec 32)
    : Meets DefinedCount stopped post (Counted.applyRotationImm host ins) ()
      ↔ SmallRotation ins ∧ post (applyRotationImm host ins) () := by
  have field : host.shr (ins &&& 0xf00) 8 = (ins &&& 0xf00) >>> 8 := shr_of_lt host _ (by decide)
  have masked
      : ((ins &&& 0xf00) >>> 8).setWidth 8 = ((ins.extractLsb' 8 4).setWidth 8 : BitVec 8) := by
    rw [← field8_eq ins 8 4 (by decide)]
    congr 1
    rw [BitVec.ushiftRight_and_distrib]
    rfl
  have number := toNat_field8 ins 8 4 (by decide)
  have bound := (ins.extractLsb' 8 4).isLt
  simp only [Counted.applyRotationImm, meets_bind, meets_shr, field, masked, applyRotationImm]
  generalize ((ins.extractLsb' 8 4).setWidth 8 : BitVec 8) = rotation at number
  rw [SmallRotation, ← number]
  have eight : DefinedCount 8 := (definedCount_natCast 8).mpr (by decide)
  refine (and_iff_right eight).trans ?_
  by_cases rotated : rotation ≠ 0
  · have positive : rotation.toNat ≠ 0 := fun zero =>
      rotated (BitVec.eq_of_toNat_eq zero)
    rw [if_pos rotated, if_pos rotated]
    simp only [meets_bind, meets_shr, meets_shl, meets_pure, DefinedCount]
    constructor
    · rintro ⟨low, high, met⟩
      exact ⟨by omega, met⟩
    · rintro ⟨small, met⟩
      exact ⟨by omega, by omega, met⟩
  · have zero : rotation.toNat = 0 := by
      rw [not_not.mp rotated]
      rfl
    rw [if_neg rotated, if_neg rotated, meets_pure, zero]
    exact (and_iff_right (by omega)).symm

/-- The switch of `decode_operand` has two cases only. -/
theorem meets_applyShift (ins value : BitVec 32) (valShift : BitVec 8)
    : Meets DefinedCount stopped post
        (Counted.applyShift host (((ins >>> 5) &&& 2).setWidth 8) value valShift) ()
      ↔ SmallShift ins value valShift.toNat
        ∧ post (applyShift host (((ins >>> 5) &&& 2).setWidth 8) value valShift) () := by
  rw [shiftField_eq, Counted.applyShift, applyShift, SmallShift]
  by_cases arithmetic : ins.getLsbD 6 = true
  · rw [if_pos arithmetic]
    simp +decide only [if_true, if_false]
    rw [meets_asr]
    simp only [arithmetic, true_implies]
  · rw [if_neg arithmetic]
    simp +decide only [if_true]
    rw [meets_shl, definedCount_natCast]
    simp only [arithmetic, Bool.false_eq_true, false_implies, and_true]

/-- A bit narrowed to a `uint8_t` is 1 exactly when the bit is set. -/
theorem getBit_setWidth_eq_one_iff (x : BitVec 32) (i : Nat)
    : (getBit x i).setWidth 8 = 1 ↔ x.getLsbD i = true := by
  rw [getBit_eq]
  cases x.getLsbD i <;> decide

theorem meets_decodeOperand {post : Int × BitVec 32 × BitVec 32 → Unit → Prop} (p : ArmCore)
    (ins : BitVec 32)
    : Meets DefinedCount stopped post (Counted.decodeOperand host p ins) ()
      ↔ SmallOperand p ins ∧ post (decodeOperand host p ins) () := by
  have defined (n : Nat) (low : n < 32) : DefinedCount n := (definedCount_natCast n).mpr low
  have rn : host.shr ins 16 = ins >>> 16 := shr_of_lt host ins (by decide)
  have type : host.shr ins 5 = ins >>> 5 := shr_of_lt host ins (by decide)
  have imm : host.shr ins 7 = ins >>> 7 := shr_of_lt host ins (by decide)
  have rs : host.shr ins 8 = ins >>> 8 := shr_of_lt host ins (by decide)
  have valueField : ((ins &&& 0xf).setWidth 8 : BitVec 8) = (ins.extractLsb' 0 4).setWidth 8 := by
    rw [← field8_eq ins 0 4 (by decide), BitVec.ushiftRight_zero]
    rfl
  have sourceField
      : ((ins >>> 8 &&& 0xf).setWidth 8 : BitVec 8) = (ins.extractLsb' 8 4).setWidth 8 :=
    field8_eq ins 8 4 (by decide)
  have immField
      : ((ins >>> 7 &&& 31).setWidth 8 : BitVec 8).toNat = (ins.extractLsb' 7 5).toNat := by
    rw [← toNat_field8 ins 7 5 (by decide), ← field8_eq ins 7 5 (by decide)]
    rfl
  have lowByte (source : BitVec 32)
      : (source.setWidth 8).toNat = (source.extractLsb' 0 8).toNat := by
    rw [BitVec.setWidth_eq_extractLsb' (by decide)]
  have regular := getBit_setWidth_eq_zero_iff ins 4
  have shifted := getBit_setWidth_eq_zero_iff ins 7
  simp only [Counted.decodeOperand, meets_bind, meets_shr, meets_getBit, rn, decodeOperand,
    SmallOperand]
  refine (and_iff_right (defined 16 (by decide))).trans ?_
  refine (and_iff_right (defined 25 (by decide))).trans ?_
  refine (and_iff_right (defined 7 (by decide))).trans ?_
  refine (and_iff_right (defined 4 (by decide))).trans ?_
  by_cases immediate : ins.getLsbD 25 = true
  · have test := (getBit_setWidth_eq_one_iff ins 25).mpr immediate
    rw [if_pos test, if_pos immediate, meets_bind, meets_applyRotationImm, meets_pure, if_pos test]
  have noTest := mt (getBit_setWidth_eq_one_iff ins 25).mp immediate
  rw [if_neg noTest, if_neg immediate, if_neg noTest, meets_bind, meets_shr, type]
  refine (and_iff_right (defined 5 (by decide))).trans ?_
  by_cases bit4 : ins.getLsbD 4 = false
  · rw [if_pos (regular.mpr bit4), if_pos bit4, if_pos (regular.mpr bit4), meets_bind, meets_shr,
      imm]
    refine (and_iff_right (defined 7 (by decide))).trans ?_
    rw [meets_bind, meets_applyShift, meets_pure, immField, valueField]
  rw [if_neg (mt regular.mp bit4), if_neg bit4, if_neg (mt regular.mp bit4)]
  by_cases bit7 : ins.getLsbD 7 = false
  · rw [if_pos (shifted.mpr bit7), if_pos bit7, if_pos (shifted.mpr bit7), meets_bind, meets_shr,
      rs]
    refine (and_iff_right (defined 8 (by decide))).trans ?_
    rw [meets_bind, meets_applyShift, meets_pure, lowByte, sourceField, valueField]
  · rw [if_neg (mt shifted.mp bit7), if_neg bit7, if_neg (mt shifted.mp bit7), meets_pure]
    exact (and_iff_right trivial).symm

section ScaledCases

variable (p : ArmCore) (value : BitVec 32) {shiftImm : BitVec 16} (low : shiftImm.toNat < 32)

include low

omit host post in
/-- The immediate as the count of `asr` and `ror`: it is not 0 there. -/
theorem narrowed_immediate (nonzero : ¬ shiftImm = 0)
    : 0 < (shiftImm.setWidth 8 : BitVec 8).toNat ∧ (shiftImm.setWidth 8 : BitVec 8).toNat < 32 := by
  have narrow : (shiftImm.setWidth 8 : BitVec 8).toNat = shiftImm.toNat := by
    rw [BitVec.toNat_setWidth]
    omega
  have positive : shiftImm.toNat ≠ 0 := fun zero => nonzero (BitVec.eq_of_toNat_eq zero)
  omega

theorem meets_scaledLsr
    : Meets DefinedCount stopped post (Counted.scaledLsr host value shiftImm) ()
      ↔ post (if shiftImm = 0 then 0 else host.shr value shiftImm.toNat) () := by
  rw [Counted.scaledLsr]
  split
  · exact meets_pure 0
  · rw [meets_shr]
    exact and_iff_right ((definedCount_natCast _).mpr low)

theorem meets_scaledAsr
    : Meets DefinedCount stopped post (Counted.scaledAsr host value shiftImm) ()
      ↔ post
          (if shiftImm = 0 then if getBit value 31 = 1 then 0xFFFFFFFF else 0
          else asr host value (shiftImm.setWidth 8)) () := by
  rw [Counted.scaledAsr]
  split
  · rw [meets_bind, meets_getBit, meets_pure]
    exact and_iff_right ((definedCount_natCast 31).mpr (by decide))
  · next nonzero =>
      have range := narrowed_immediate low nonzero
      rw [meets_asr]
      exact and_iff_right ⟨range.2, fun zero => absurd zero (Nat.ne_of_gt range.1)⟩

theorem meets_scaledRor
    : Meets DefinedCount stopped post (Counted.scaledRor host p value shiftImm) ()
      ↔ post
          (if shiftImm = 0 then
            if getBit (armReadCpsr p) CpsrBit.C <<< 31 ≠ 0 ∨ value >>> 1 ≠ 0 then 1 else 0
          else ror host value (shiftImm.setWidth 8)) () := by
  have defined (n : Nat) (low : n < 32) : DefinedCount n := (definedCount_natCast n).mpr low
  have left (x : BitVec 32) : host.shl x 31 = x <<< 31 := shl_of_lt host x (by decide)
  have right (x : BitVec 32) : host.shr x 1 = x >>> 1 := shr_of_lt host x (by decide)
  rw [Counted.scaledRor]
  split
  · rw [meets_bind, meets_getBit, meets_bind, meets_shl, left]
    refine (and_iff_right (defined 29 (by decide))).trans ?_
    refine (and_iff_right (defined 31 (by decide))).trans ?_
    by_cases top : getBit (armReadCpsr p) CpsrBit.C <<< 31 ≠ 0
    · rw [if_pos top, if_pos (.inl top), meets_pure]
    · rw [if_neg top, meets_bind, meets_shr, right, meets_pure]
      refine (and_iff_right (defined 1 (by decide))).trans ?_
      simp only [top, false_or]
  · next nonzero =>
      rw [meets_ror]
      exact and_iff_right (narrowed_immediate low nonzero)

theorem meets_scaledIndex (shift rm : BitVec 16)
    : Meets DefinedCount stopped post (Counted.scaledIndex host p shift shiftImm rm) ()
      ↔ post (scaledIndex host p shift shiftImm rm) () := by
  have first {next : BitVec 32 → Unit → Prop} (value : BitVec 32)
      : Meets DefinedCount stopped next
          (if shift = 0b01 then Counted.scaledLsr host value shiftImm else pure 0) ()
        ↔ next
            (if shift = 0b01 then if shiftImm = 0 then 0 else host.shr value shiftImm.toNat else 0)
            () := by
    split
    · exact meets_scaledLsr value low
    · exact meets_pure 0
  have second {next : BitVec 32 → Unit → Prop} (value index : BitVec 32)
      : Meets DefinedCount stopped next
          (if shift = 0b01 ∨ shift = 0b10 then Counted.scaledAsr host value shiftImm
          else pure index) ()
        ↔ next
            (if shift = 0b01 ∨ shift = 0b10 then
              if shiftImm = 0 then if getBit value 31 = 1 then 0xFFFFFFFF else 0
              else asr host value (shiftImm.setWidth 8)
            else index) () := by
    split
    · exact meets_scaledAsr value low
    · exact meets_pure index
  rw [Counted.scaledIndex, scaledIndex]
  split
  · rw [meets_shl]
    exact and_iff_right ((definedCount_natCast _).mpr low)
  · rw [meets_bind, first, meets_bind, second]
    split
    · exact meets_scaledRor p _ low
    · exact meets_pure _

end ScaledCases

theorem meets_loadStoreIndex (p : ArmCore) (ins : BitVec 32)
    : Meets DefinedCount stopped post (Counted.loadStoreIndex host p ins) ()
      ↔ post (loadStoreIndex host p ins) () := by
  have bound := toNat_getBits_lt ins 11 7 (by decide)
  rw [Counted.loadStoreIndex, loadStoreIndex]
  split
  · split
    · exact meets_pure _
    · refine meets_scaledIndex p ?_ _ _
      rw [BitVec.toNat_setWidth]
      omega
  · exact meets_pure _

end Counts

theorem countsDefined_dataProcessingShift (host : Host) (p : ArmCore) (ins : BitVec 32)
    : ShiftingCall.dataProcessingShift.CountsDefined host p ins
      ↔ (conditionPassed (armReadCpsr p) ins → SmallOperand p ins) := by
  rw [ShiftingCall.CountsDefined, ShiftingCall.run, ShiftingCall.counted, armDataProcessingShift]
  split
  · next passes =>
      rw [meets_bind, meets_decodeOperand, forall_prop_of_true passes]
      refine and_iff_left ?_
      rcases decodeOperand host p ins with ⟨isdataproc, val1, val2⟩
      by_cases refused : isdataproc = -1
      · simp only [refused, if_true, meets_pure]
      · simp only [refused, if_false, meets_pure]
  · next fails =>
      rw [meets_pure]
      exact iff_of_true rfl fun passes => absurd passes fails

/-- Which calls only shift by counts that C defines. Scaled offsets always do. -/
theorem countsDefined_iff (call : ShiftingCall) (host : Host) (p : ArmCore) (ins : BitVec 32)
    : call.CountsDefined host p ins ↔ call.Small p ins := by
  cases call with
  | dataProcessingShift => exact countsDefined_dataProcessingShift host p ins
  | dataProcessingImmediateMsr unset =>
      rw [ShiftingCall.CountsDefined, ShiftingCall.run, ShiftingCall.counted, ShiftingCall.Small,
        meets_bind, meets_applyRotationImm, meets_pure]
      exact and_iff_left rfl
  | loadStore =>
      rw [ShiftingCall.CountsDefined, ShiftingCall.run, ShiftingCall.counted, ShiftingCall.Small,
        meets_bind, meets_loadStoreIndex, meets_pure]
      exact iff_of_true rfl trivial

/-- `MOV r1, #0xFF` rotated by 10: the left shift has the count -2. -/
theorem rotationByTen_undefined
    : ¬ ShiftingCall.dataProcessingShift.CountsDefined (.plain .little) (oneWord 4 0xE3A015FF)
        0xE3A015FF := by
  rw [countsDefined_dataProcessingShift]
  intro small
  have rotation : SmallRotation 0xE3A015FF := small (by decide +kernel)
  rw [SmallRotation] at rotation
  exact absurd rotation (by decide)

end Armator
