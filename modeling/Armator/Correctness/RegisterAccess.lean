import Armator.Correctness.RegisterDump

/-! A register that `P` writes, as `p` and `g` show it afterwards. -/

namespace Armator.Gdb

open CText Traced

/-- A hexadecimal text of the number of a register. -/
def NamesRegister (number : List (BitVec 8)) (n : Nat) : Prop :=
  IsHex number ∧ hexValue number = n

/-- The digits of a word in the byte order of the target. -/
def hexWord (env : Env) (value : BitVec 32) : List (BitVec 8) :=
  (List.range 4).flatMap fun k => printHex2 (env.targetOrder.byteOf value k)

def readRegisterPayload (number : List (BitVec 8)) : List (BitVec 8) :=
  ascii 'p' :: number

def writeRegisterPayload (number word : List (BitVec 8)) : List (BitVec 8) :=
  ascii 'P' :: (number ++ ascii '=' :: word)

/-- `p` is answered with these digits for register `n`. -/
def ReadsRegister (env : Env) (gdb : Session) (n : Nat) (word : List (BitVec 8)) : Prop :=
  ∀ number, NamesRegister number n → ∃ t, Answers env gdb (readRegisterPayload number) word t

/-- Field `n` of the reply to `g` is this one. -/
def ReportsRegister (env : Env) (gdb : Session) (n : Nat) (word : List (BitVec 8)) : Prop :=
  ∃ reply t, Answers env gdb [ascii 'g'] reply t ∧ (reply.drop (8 * n)).take 8 = word

/-- A write of register `n` with `P` is answered OK, both ways to read the register show the value
then, and every other register reads as before.
-/
def Coherent (env : Env) (gdb : Session) (n : Nat) (value : BitVec 32) : Prop :=
  ∀ number, NamesRegister number n
    → ∃ t,
        Answers env gdb (writeRegisterPayload number (hexWord env value)) (text "OK") t
        ∧ ReadsRegister env t n (hexWord env value)
        ∧ ReportsRegister env t n (hexWord env value)
        ∧ ∀ m < 16, m ≠ n
          → ∀ word,
              (ReadsRegister env t m word ↔ ReadsRegister env gdb m word)
              ∧ (ReportsRegister env t m word ↔ ReportsRegister env gdb m word)

/-- The register that `p` reads for a number: `atoi` makes 0 of a letter. -/
def decimalReading (n : Nat) : Nat :=
  if n < 10 then n else 0

theorem hexWord_eq (env : Env) (value : BitVec 32) : hexWord env value = wordText env value :=
  (wordText_eq env value).symm

theorem wordText_injective (env : Env) {value other : BitVec 32}
    (same : wordText env value = wordText env other)
    : value = other := by
  have first : (wordText env value).drop (8 * 0) = wordText env value ++ [] := by
    rw [List.append_nil]
    rfl
  have second : (wordText env value).drop (8 * 0) = wordText env other ++ [] := by
    rw [List.append_nil, same]
    rfl
  exact (wordAt_of_drop env first).symm.trans (wordAt_of_drop env second)

theorem decimalReading_lt (n : Nat) : decimalReading n < 10 := by
  unfold decimalReading
  split
  · assumption
  · decide

/-- Every register has a name. -/
theorem namesRegister_printDigit {n : Nat} (register : n < 16)
    : NamesRegister [printDigit n] n := by
  have digit := hexDigit_printDigit register
  refine ⟨⟨List.cons_ne_nil _ _, fun c member => ?_⟩, ?_⟩
  · rw [List.mem_singleton.mp member, digit]
    rfl
  · simp only [hexValue, readDigits, digit, Nat.zero_mul, Nat.zero_add]

theorem atoiValue_of_namesRegister (env : Env) {number : List (BitVec 8)} {n : Nat}
    (names : NamesRegister number n) (register : n < 16)
    : atoiValue env (scanInt number) = BitVec.ofNat 32 (decimalReading n) := by
  obtain ⟨hex, rfl⟩ := names
  have reading := readDigits_decimal_of_lt hex.2 register
  cases number with
  | nil => exact absurd rfl hex.1
  | cons c rest =>
      rw [scanInt_of_isHex hex]
      split
      · have small := decimalReading_lt (hexValue (c :: rest))
        rw [reading, ← hexValue, ← decimalReading, atoiValue, if_pos (by omega)]
        rfl
      · next letter =>
          -- without a decimal digit in front the decimal reading is 0 as well
          have none : decimalDigit c = none := by
            rwa [Option.not_isSome_iff_eq_none] at letter
          rw [readDigits, none, ← hexValue, ← decimalReading] at reading
          rw [← reading]
          rfl

/-- There is one answer only. -/
theorem Answers.unique {env : Env} {gdb t u : Session} {payload reply other : List (BitVec 8)}
    (first : Answers env gdb payload reply t) (second : Answers env gdb payload other u)
    : reply = other ∧ t = u := by
  have valid : ChecksumDigits payload (printHex2 (checksum payload)) :=
    ⟨⟨List.cons_ne_nil _ _, hexDigit_printHex2 _⟩, rfl, hexValue_printHex2 _⟩
  have same := (first.2 _ [] valid).symm.trans (second.2 _ [] valid)
  obtain rfl : t = u := (Prod.mk.inj (Except.ok.inj same)).2
  exact ⟨frame_injective (List.append_cancel_left (first.1.symm.trans second.1)), rfl⟩

theorem answers_readRegister (env : Env) (gdb : Session) {number : List (BitVec 8)} {n : Nat}
    (names : NamesRegister number n) (register : n < 16)
    : Answers env gdb (readRegisterPayload number)
        (wordText env (reportedRegister gdb.arm (decimalReading n)))
        (gdb.acknowledged.replied
          (wordText env (reportedRegister gdb.arm (decimalReading n)))) := by
  have checked : ∀ i, InPacket (.write i) ↔ i < MAX_PACKET_SIZE := fun _ => Iff.rfl
  have found : handler env (ascii 'p') = some (readRegisterRequest env) := rfl
  refine answers_of_handler found (fun digits behind => ?_) rfl
  have low := decimalReading_lt n
  have value : (BitVec.ofNat 32 (decimalReading n)).toNat = decimalReading n := by
    rw [BitVec.toNat_ofNat]
    omega
  have notPc : BitVec.ofNat 32 (decimalReading n) ≠ 15 := by
    intro same
    rw [same] at value
    have fifteen : (15 : BitVec 32).toNat = 15 := rfl
    omega
  have index
      : (BitVec.ofNat 32 (decimalReading n)).setWidth 8 = BitVec.ofNat 8 (decimalReading n) :=
    BitVec.setWidth_ofNat_of_le (by decide) _
  have shown : registerText env gdb.acknowledged.arm (BitVec.ofNat 32 (decimalReading n))
      = wordText env (reportedRegister gdb.arm (decimalReading n)) := by
    rw [registerText, if_neg notPc, index, sub_zero, reportedRegister, if_neg (by omega)]
    rfl
  rw [meets_readRegisterRequest checked, stringAt_arguments,
    arguments_of_noNul _ (noNul_of_isHex names.1), atoiValue_of_namesRegister env names register,
    value, if_pos (by omega), shown]
  exact ⟨trivial, fun _ => trivial, rfl⟩

/-- `P` sets the register. -/
theorem answers_writeRegister (env : Env) (gdb : Session) {number : List (BitVec 8)} {n : Nat}
    (names : NamesRegister number n) (register : n < 16) (value : BitVec 32)
    : Answers env gdb (writeRegisterPayload number (wordText env value)) (text "OK")
        (Session.replied
          { gdb.acknowledged with arm := armWriteRegister gdb.arm (BitVec.ofNat 8 n) value }
          (text "OK")) := by
  have checked : ∀ i, InPacket (.write i) ↔ i < MAX_PACKET_SIZE := fun _ => Iff.rfl
  have found : handler env (ascii 'P') = some (writeRegisterRequest env) := rfl
  refine answers_of_handler found (fun digits behind => ?_) rfl
  obtain ⟨hex, rfl⟩ := names
  obtain ⟨whole, equals, read⟩ := parsed_writeRegister hex (noNul_wordText env value)
  have range : 0 ≤ (hexValue number : Int) ∧ (hexValue number : Int) < 2 ^ 32 := by omega
  have scanned : scannedValue env env.unset.reg (some (hexValue number : Int))
      = BitVec.ofNat 32 (hexValue number) := by
    rw [scannedValue, if_pos range]
    rfl
  have low : (BitVec.ofNat 32 (hexValue number)).toNat < 16 := by
    rw [BitVec.toNat_ofNat]
    omega
  have index : (BitVec.ofNat 32 (hexValue number)).setWidth 8 = BitVec.ofNat 8 (hexValue number) :=
    BitVec.setWidth_ofNat_of_le (by decide) _
  have held : (heldRequest (writeRegisterPayload number (wordText env value)) digits behind).drop
        (2 + number.length + 1)
      = wordText env value ++ (0 :: digits ++ 0 :: behind) := by
    have place : 2 + number.length + 1 = number.length + 2 + 1 := by omega
    have content : (writeRegisterPayload number (wordText env value)).drop (number.length + 2)
        = wordText env value := by
      rw [writeRegisterPayload, List.drop_succ_cons, List.drop_append, List.drop_eq_nil_of_le
        (Nat.le_succ _), List.nil_append, Nat.add_sub_cancel_left, List.drop_succ_cons,
        List.drop_zero]
    rw [place, drop_heldRequest, content]
    rw [writeRegisterPayload, List.length_cons, List.length_append, List.length_cons]
    omega
  rw [meets_writeRegisterRequest checked, stringAt_arguments, whole, equals, read]
  refine ⟨trivial, fun _ _ => ⟨trivial, fun _ => trivial⟩, fun _ => trivial, ?_⟩
  rw [Option.map_some, scanned, if_pos low, index, ← writeRegisterPayload,
    uint32Value_of_drop env held]
  rfl

/-- What `p` answers is the register that it takes the number for. -/
theorem readsRegister_iff (env : Env) (gdb : Session) {n : Nat} (register : n < 16)
    (word : List (BitVec 8))
    : ReadsRegister env gdb n word
      ↔ word = wordText env (reportedRegister gdb.arm (decimalReading n)) := by
  constructor
  · intro reads
    obtain ⟨t, answer⟩ := reads _ (namesRegister_printDigit register)
    exact (answer.unique
      (answers_readRegister env gdb (namesRegister_printDigit register) register)).1
  · rintro rfl number names
    exact ⟨_, answers_readRegister env gdb names register⟩

theorem reportsRegister_iff (env : Env) (gdb : Session) {n : Nat} (register : n < 16)
    (word : List (BitVec 8))
    : ReportsRegister env gdb n word ↔ word = wordText env (reportedRegister gdb.arm n) := by
  have field : ((registersText env gdb.arm).drop (8 * n)).take 8
      = wordText env (reportedRegister gdb.arm n) := by
    obtain ⟨more, found⟩ := drop_flatMap_range (length_reportedField env gdb.arm)
      (show n < 42 by omega)
    rw [← registersText_eq, reportedField, if_pos register] at found
    rw [found, List.take_append_of_le_length (Nat.le_refl 8)]
    rfl
  constructor
  · rintro ⟨reply, t, answer, rfl⟩
    rw [(answer.unique (answers_readGeneralRegisters env gdb)).1, field]
  · rintro rfl
    exact ⟨_, _, answers_readGeneralRegisters env gdb, field⟩

/-- A written register has the value, and the others keep theirs. -/
theorem reportedRegister_armWriteRegister (p : ArmCore) {n m : Nat} (written : n < 16)
    (read : m < 16) {value : BitVec 32} (clear : n = 15 → value.getLsbD 1 = false)
    : reportedRegister (armWriteRegister p (BitVec.ofNat 8 n) value) m
      = if m = n then value else reportedRegister p m := by
  have index {k : Nat} (low : k < 16) : (BitVec.ofNat 8 k).toNat = k := by
    rw [BitVec.toNat_ofNat]
    omega
  have cell (k : Nat) (low : k < 16)
      : readRegister (armWriteRegister p (BitVec.ofNat 8 n) value).reg (BitVec.ofNat 8 k)
        = if k = n then value else readRegister p.reg (BitVec.ofNat 8 k) := by
    rw [armWriteRegister_reg, readRegister_writeRegister]
    refine if_congr ⟨fun same => ?_, fun same => ?_⟩ rfl rfl
    · rw [← index written, same.1, index low]
    · rw [same, index written]
      exact ⟨rfl, written⟩
  unfold reportedRegister
  by_cases pc : m = 15
  · subst pc
    rw [if_pos rfl, if_pos rfl, ← fetchAddress, ← fetchAddress]
    by_cases same : 15 = n
    · subst same
      have set : readRegister (armWriteRegister p 15 value).reg 15 = value :=
        (cell 15 (by decide)).trans (if_pos rfl)
      have even : (readRegister (armWriteRegister p 15 value).reg 15).getLsbD 1 = false := by
        rw [set]
        exact clear rfl
      rw [if_pos rfl]
      exact (fetchAddress_of_clear even).trans set
    · have kept := (cell 15 (by decide)).trans (if_neg same)
      rw [if_neg same]
      simp only [fetchAddress, armReadRegister, if_true]
      exact congrArg (fun pc : BitVec 32 => ((pc + 4) &&& 0xFFFFFFFD) - 4) kept
  · have notPc : BitVec.ofNat 8 m ≠ 15 := by
      intro same
      have value := congrArg BitVec.toNat same
      rw [index read] at value
      exact pc value
    rw [if_neg pc, if_neg pc, armReadRegister_of_ne _ _ notPc, armReadRegister_of_ne _ _ notPc]
    exact cell m read

/-- What has to hold of the registers after the write. -/
theorem coherent_iff_reported (env : Env) (gdb : Session) {n : Nat} (register : n < 16)
    {value : BitVec 32} (clear : n = 15 → value.getLsbD 1 = false)
    : Coherent env gdb n value
      ↔ let after := armWriteRegister gdb.arm (BitVec.ofNat 8 n) value
        reportedRegister after (decimalReading n) = value
        ∧ ∀ m < 16, m ≠ n
          → reportedRegister after (decimalReading m)
            = reportedRegister gdb.arm (decimalReading m) := by
  have reported (m : Nat) (low : m < 16) :=
    reportedRegister_armWriteRegister gdb.arm register low clear
  constructor
  · intro coherent
    obtain ⟨t, answer, reads, -, others⟩ := coherent _ (namesRegister_printDigit register)
    rw [hexWord_eq] at answer reads
    obtain ⟨-, rfl⟩ := answer.unique
      (answers_writeRegister env gdb (namesRegister_printDigit register) register value)
    refine ⟨?_, fun m low other => ?_⟩
    · exact (wordText_injective env ((readsRegister_iff env _ register _).mp reads)).symm
    · have before := (readsRegister_iff env gdb low _).mpr rfl
      have after := (others m low other _).1.mpr before
      exact (wordText_injective env ((readsRegister_iff env _ low _).mp after)).symm
  · rintro ⟨reads, others⟩ number names
    have answers := answers_writeRegister env gdb names register value
    refine ⟨_, hexWord_eq env value ▸ answers, ?_, ?_, ?_⟩
    · rw [readsRegister_iff env _ register, hexWord_eq]
      exact congrArg (wordText env) reads.symm
    · rw [reportsRegister_iff env _ register, hexWord_eq]
      exact congrArg (wordText env) ((reported n register).trans (if_pos rfl)).symm
    · intro m low other word
      rw [readsRegister_iff env _ low, readsRegister_iff env _ low, reportsRegister_iff env _ low,
        reportsRegister_iff env _ low]
      have kept : reportedRegister (armWriteRegister gdb.arm (BitVec.ofNat 8 n) value) m
          = reportedRegister gdb.arm m :=
        (reported m low).trans (if_neg other)
      constructor
      · exact Eq.congr_right (congrArg (wordText env) (others m low other))
      · exact Eq.congr_right (congrArg (wordText env) kept)

/-- Reading is coherent with writing for the registers 1 to 9, and for a value that register 0 has:
that one is read in place of those from 10 on.
-/
theorem coherent_iff (env : Env) (gdb : Session) {n : Nat} (register : n < 16)
    {value : BitVec 32} (clear : n = 15 → value.getLsbD 1 = false)
    : Coherent env gdb n value ↔ (1 ≤ n ∧ n ≤ 9) ∨ armReadRegister gdb.arm 0 = value := by
  have first : reportedRegister gdb.arm 0 = armReadRegister gdb.arm 0 := rfl
  have reported (m : Nat)
      : reportedRegister (armWriteRegister gdb.arm (BitVec.ofNat 8 n) value) (decimalReading m)
        = if decimalReading m = n then value else reportedRegister gdb.arm (decimalReading m) := by
    have small := decimalReading_lt m
    exact reportedRegister_armWriteRegister gdb.arm register (by omega) clear
  have digit {m : Nat} (low : m < 10) : decimalReading m = m := if_pos low
  have letter {m : Nat} (high : 10 ≤ m) : decimalReading m = 0 := if_neg (Nat.not_lt.mpr high)
  rw [coherent_iff_reported env gdb register clear, ← first]
  dsimp only
  rw [reported n]
  constructor
  · rintro ⟨reads, others⟩
    rcases Nat.lt_or_ge n 10 with low | high
    · rcases Nat.eq_zero_or_pos n with rfl | positive
      · -- the registers from 10 on are read as the written one
        have tenth := others 10 (by decide) (by decide)
        rw [reported, letter (Nat.le_refl 10), if_pos rfl] at tenth
        exact .inr tenth.symm
      · exact .inl ⟨positive, Nat.le_of_lt_succ low⟩
    · rw [letter high, if_neg (by omega)] at reads
      exact .inr reads
  · rintro (⟨positive, low⟩ | same)
    · refine ⟨if_pos (digit (Nat.lt_succ_of_le low)), fun m _ other => ?_⟩
      rw [reported]
      rcases Nat.lt_or_ge m 10 with small | high
      · rw [digit small, if_neg other]
      · rw [letter high, if_neg (by omega)]
    · constructor
      · rcases Nat.lt_or_ge n 10 with low | high
        · exact if_pos (digit low)
        · rw [letter high, same, ite_self]
      · intro m _ other
        rw [reported]
        rcases Nat.lt_or_ge m 10 with small | high
        · rw [digit small, if_neg other]
        · rw [letter high, same, ite_self]

/-- `P1=…` and then `p1`. -/
theorem writeRegister1_coherent : Coherent .plain (oneWordSession 4) 1 0x12345678 :=
  (coherent_iff .plain (oneWordSession 4) (by decide) fun last => absurd last (by decide)).mpr
    (.inl ⟨by decide, by decide⟩)

/-- `Pa=01000000` sets register 10 to 1, and `pa` is answered with register 0. -/
theorem writeRegister10_readsRegister0 : ¬ Coherent .plain (oneWordSession 4) 10 1 := by
  have differs : reportedRegister
      (armWriteRegister (oneWordSession 4).arm (BitVec.ofNat 8 10) 1) (decimalReading 10) ≠ 1 := by
    decide +kernel
  intro coherent
  exact differs ((coherent_iff_reported .plain (oneWordSession 4) (by decide)
    fun last => absurd last (by decide)).mp coherent).1

end Armator.Gdb
