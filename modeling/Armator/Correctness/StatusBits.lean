import Armator.Correctness.ExceptionReports
import Armator.Correctness.Runs

/-! Which CPSR bits programs change: none but the flags and T, and without the S bit only the
flags of comparisons.
-/

namespace Armator

open Bits Relation

/-- `q` has the control bits, the SPSR and the mode field of `p`. -/
structure KeepsControl (p q : ArmCore) : Prop where
  bits :
    ∀ i < 28, i ≠ CpsrBit.T → (armReadCpsr q).getLsbD i = (armReadCpsr p).getLsbD i
  spsr : armReadSpsr q = armReadSpsr p
  mode : q.reg.mode = p.reg.mode

namespace KeepsControl

theorem refl (p : ArmCore) : KeepsControl p p :=
  ⟨fun _ _ _ => rfl, rfl, rfl⟩

theorem trans {p q r : ArmCore} (first : KeepsControl p q) (second : KeepsControl q r)
    : KeepsControl p r :=
  ⟨fun i low notT => (second.bits i low notT).trans (first.bits i low notT),
    second.spsr.trans first.spsr, second.mode.trans first.mode⟩

/-- Changes that leave the CPSR and the fixed parts alone keep the control bits. -/
theorem of_sameMachine {p q : ArmCore} (same : SameMachine p q)
    (cpsr : armReadCpsr q = armReadCpsr p)
    : KeepsControl p q :=
  ⟨fun i _ _ => by rw [cpsr], same.spsr, same.mode⟩

/-- A new CPSR with the old control bits. -/
theorem writeCpsr {p : ArmCore} {psr : BitVec 32}
    (bits : ∀ i < 28, i ≠ CpsrBit.T → psr.getLsbD i = (armReadCpsr p).getLsbD i)
    : KeepsControl p (armWriteCpsr p psr) :=
  ⟨by rwa [armReadCpsr_armWriteCpsr], armReadSpsr_armWriteCpsr _ _, rfl⟩

/-- Instructions keep the control bits. Witness: one case for each effect; the flags and T are
not among these bits.
-/
theorem of_effects {host : Host} {allowed : Nat → BitVec 32 → Prop} {p q : ArmCore}
    (effects : Effects host allowed p q)
    : KeepsControl p q := by
  induction effects with
  | refl p => exact refl p
  | trans _ _ first second => exact first.trans second
  | countCycle p => exact ⟨fun _ _ _ => rfl, rfl, rfl⟩
  | writeRegister p reg value =>
      exact of_sameMachine (.writeRegister p reg value) (armReadCpsr_armWriteRegister _ _ _)
  | writeUsrRegister p reg value =>
      exact of_sameMachine (.writeUsrRegister p reg value) (readCpsr_writeUsrRegister _ _ _)
  | writeFlags p flags =>
      refine writeCpsr fun i low _ => ?_
      rw [Flags.getLsbD_put]
      simp only [CpsrBit.V, CpsrBit.C, CpsrBit.Z, CpsrBit.N]
      grind
  | writeT p b =>
      refine writeCpsr fun i _ notT => ?_
      rw [getLsbD_putBit, if_neg fun same => notT same.1.symm]
  | writeByte p value _ => exact of_sameMachine (.writeByte p _ value) rfl
  | writeHalf p value _ => exact of_sameMachine (.writeHalf _ p _ value) rfl
  | writeWord p value _ => exact of_sameMachine (.writeWord _ p _ value) rfl

end KeepsControl

/-- A step that fetches its instruction and returns. -/
def FetchedStep (host : Host) (p q : ArmCore) : Prop :=
  ∃ ins result, Fetches host p ins ∧ armStep host p = .returned result q

/-- Consecutive steps whose fetches succeed change no CPSR bits but N, Z, C, V and T, neither the
SPSR nor the mode field, by induction on their number.
-/
theorem fetchedSteps_keepControl (host : Host) (p q : ArmCore)
    (run : ReflTransGen (FetchedStep host) p q)
    : KeepsControl p q := by
  induction run with
  | refl => exact .refl p
  | tail _ step ih =>
      obtain ⟨ins, result, fetched, returned⟩ := step
      exact ih.trans (.of_effects (Effects.armStep fetched returned))

/-- ADDS r0, r0, r0. -/
theorem adds_keepsControl
    : ∃ q,
        ReflTransGen (FetchedStep (.plain .little)) (oneWord 4 0xE0900000) q
        ∧ KeepsControl (oneWord 4 0xE0900000) q := by
  have fetched := fetches_oneWord (.plain .little) (by decide : 0 < 4) 0xE0900000
  have step : FetchedStep (.plain .little) (oneWord 4 0xE0900000) _ :=
    ⟨_, _, fetched,
      armStep_of_returned fetched (decoderOutcome_data _ _ (.inl ⟨by decide, by decide⟩))⟩
  have run := ReflTransGen.single step
  exact ⟨_, run, fetchedSteps_keepControl (.plain .little) (oneWord 4 0xE0900000) _ run⟩

/-- The flags `arm_tst` and `arm_teq` set from a result: C is cleared, V stays. -/
def logicalFlags (result : BitVec 32) (old : Flags) : Flags where
  n := result.msb
  z := result = 0
  c := false
  v := old.v

/-- Setting Z and N and clearing C writes these flags. -/
theorem updateZN_clearC (p : ArmCore) (result : BitVec 32)
    : armWriteCpsr (updateZN p result)
        (armReadCpsr (updateZN p result) &&& ~~~(1#32 <<< 29))
      = armWriteCpsr p ((logicalFlags result (.read (armReadCpsr p))).put (armReadCpsr p)) := by
  rw [updateZN_eq, armReadCpsr_armWriteCpsr, armWriteCpsr_armWriteCpsr]
  exact congrArg (armWriteCpsr p) (putCarry_eq_put _ _ _ false)

/-- The flags that an opcode without the S bit leaves: the comparisons set theirs. -/
def clearSFlags (op : Opcode) (a b : BitVec 32) (old : Flags) : Flags :=
  match op with
  | .TST => logicalFlags (a &&& b) old
  | .TEQ => logicalFlags (a ^^^ b) old
  | .CMP => cmpFlags a b
  | .CMN => cmnFlags a b
  | _ => old

/-- Witness: the comparisons by their flags, the other opcodes by their test of the S bit. -/
theorem armReadCpsr_executeOpcode_clearS (p : ArmCore) (op : Opcode) (rd : BitVec 8)
    (a b : BitVec 32) (v : BitVec 8)
    : armReadCpsr
        (executeOpcode p op.code rd a b 0 ((getBit (armReadCpsr p) 29).setWidth 8) v).2
      = (clearSFlags op a b (.read (armReadCpsr p))).put (armReadCpsr p) := by
  have holds := holdsCarry_bitC (armReadCpsr p)
  have unchanged : (Flags.read (armReadCpsr p)).put (armReadCpsr p) = armReadCpsr p :=
    Flags.put_read_of_low fun _ _ => rfl
  cases op with
  | TST => exact (congrArg armReadCpsr (updateZN_clearC p _)).trans (armReadCpsr_armWriteCpsr _ _)
  | TEQ => exact (congrArg armReadCpsr (updateZN_clearC p _)).trans (armReadCpsr_armWriteCpsr _ _)
  | CMP =>
      exact (congrArg armReadCpsr (armCmp_eq p a b v holds)).trans (armReadCpsr_armWriteCpsr _ _)
  | CMN => exact (congrArg armReadCpsr (armCmn_eq p a b holds)).trans (armReadCpsr_armWriteCpsr _ _)
  | _ => exact (armReadCpsr_armWriteRegister _ _ _).trans unchanged.symm

/-- The CPSR is not touched by a word without the S bit: its condition fails, its operand is refused,
its opcode is no comparison, or the flags already are those of the comparison of `a` and `b`. For TST
and TEQ these are N and Z of the result and a clear C; for CMN N and Z of `a + b`, its carry and its
signed overflow; for CMP N and Z of `a - b`, the carry of `a` and the two's complement of `b`, and V
if `a` and `b` have one sign and `a - b` has the other.
-/
def ClearSHarmless (host : Host) (p : ArmCore) (ins : BitVec 32) : Prop :=
  let (status, a, b) := decodeOperand host p ins
  let old := Flags.read (armReadCpsr p)
  conditionPassed (armReadCpsr p) ins → status = 0 → clearSFlags (.decode ins) a b old = old

/-- A data-processing word without the S bit leaves the CPSR alone except for comparisons: the
dispatch has no other use for their encodings.
Witness: the flags that the opcode leaves.
-/
theorem armStep_clearS_keepsCpsr_iff (host : Host) (p : ArmCore) (ins : BitVec 32)
    (fetched : Fetches host p ins) (data : IsDataProcessing ins)
    (clear : ins.getLsbD 20 = false)
    : (∃ q, armStep host p = .returned 0 q ∧ armReadCpsr q = armReadCpsr p)
      ↔ ClearSHarmless host (afterFetch p) ins := by
  have step := armStep_of_returned fetched (decoderOutcome_data host (afterFetch p) data)
  have reached : (∃ q, armStep host p = .returned 0 q ∧ armReadCpsr q = armReadCpsr p)
      ↔ armReadCpsr (armDataProcessingShift host (afterFetch p) ins).2 = armReadCpsr p := by
    constructor
    · rintro ⟨q, returned, kept⟩
      rw [step] at returned
      obtain ⟨-, rfl⟩ := Outcome.returned.inj returned
      exact kept
    · exact fun kept => ⟨_, step, kept⟩
  rw [reached, ← armReadCpsr_afterFetch p, ClearSHarmless]
  have unchanged : (Flags.read (armReadCpsr (afterFetch p))).put (armReadCpsr (afterFetch p))
      = armReadCpsr (afterFetch p) :=
    Flags.put_read_of_low fun _ _ => rfl
  have noS : ((getBit ins 20).setWidth 8 : BitVec 8) = 0 :=
    (getBit_setWidth_eq_zero_iff ins 20).mpr clear
  by_cases passes : conditionPassed (armReadCpsr (afterFetch p)) ins
  · have status := decodeOperand_status host (afterFetch p) ins
    rcases operands : decodeOperand host (afterFetch p) ins with ⟨operandStatus, a, b⟩
    rw [operands] at status
    by_cases refused : getBit ins 25 = 0 ∧ getBit ins 7 = 1 ∧ getBit ins 4 = 1
    · rw [if_pos refused] at status
      obtain rfl : operandStatus = -1 := status
      refine iff_of_true ?_ fun _ accepted => absurd accepted (by decide)
      simp only [armDataProcessingShift, passes, if_true, operands]
    · rw [if_neg refused] at status
      obtain rfl : operandStatus = 0 := status
      rw [armDataProcessingShift_eq passes operands, noS, armReadCpsr_executeOpcode_clearS]
      conv_lhs => rhs; rw [← unchanged]
      rw [Flags.put_inj]
      exact ⟨fun same _ _ => same, fun same => same passes rfl⟩
  · refine iff_of_true ?_ ?_
    · simp only [armDataProcessingShift, passes]
      rfl
    · exact fun passed => absurd passed passes

/-- AND r0, r0, r0. -/
theorem and_keepsCpsr
    : ∃ q,
        armStep (.plain .little) (oneWord 4 0xE0000000) = .returned 0 q
        ∧ armReadCpsr q = armReadCpsr (oneWord 4 0xE0000000) :=
  (armStep_clearS_keepsCpsr_iff (.plain .little) (oneWord 4 0xE0000000) 0xE0000000
    (fetches_oneWord _ (by decide) _) (by decide) (by decide)).mpr fun _ _ => rfl

/-- MRS r0, CPSR (0xE10F0000) runs as TST r15, r0 and sets Z. -/
theorem mrs_setsZ
    : Fetches (.plain .little) (oneWord 4 0xE10F0000) 0xE10F0000
      ∧ IsDataProcessing 0xE10F0000
      ∧ (0xE10F0000 : BitVec 32).getLsbD 20 = false
      ∧ ¬ ∃ q,
          armStep (.plain .little) (oneWord 4 0xE10F0000) = .returned 0 q
          ∧ armReadCpsr q = armReadCpsr (oneWord 4 0xE10F0000) := by
  have fetched := fetches_oneWord (.plain .little) (by decide : 0 < 4) 0xE10F0000
  have data : IsDataProcessing 0xE10F0000 := by decide
  refine ⟨fetched, data, by decide, ?_⟩
  rintro ⟨q, returned, kept⟩
  rw [armStep_of_returned fetched (decoderOutcome_data _ _ data)] at returned
  obtain ⟨-, rfl⟩ := Outcome.returned.inj returned
  exact absurd kept (by decide +kernel)

end Armator
