import Armator.Correctness.RequestForms

/-! Which requests the server withstands: one theorem for each command. -/

namespace Armator.Gdb

open CText Traced ByteStuffing

/-- The arguments of `H` are refused: there is a type, and where the number is used there is one,
for which the answer is an error.
-/
def RefusedThread (args : List (BitVec 8)) : Prop :=
  ∃ type id,
    args = type :: id
    ∧ (type = ascii 'c' ∨ type = ascii 'g'
      → ∃ n : Int,
          scanInt (id.takeWhile fun c => c ≠ 0) = some n
          ∧ -2 ^ 31 ≤ n
          ∧ n < 2 ^ 31
          ∧ ¬ (-2 < n ∧ n < 1))

/-- A write runs out of memory at its `k`-th byte, for which there is content, and the bytes before
are those that memory holds already.
-/
def RunsOut (mem : Memory) (address size : BitVec 32) (payload : List (BitVec 8)) : Prop :=
  ∃ colon k data rest,
    indexOf (arguments payload) (ascii ':') = some colon
    ∧ k < size.toNat
    ∧ (∀ i < k, (address + BitVec.ofNat 32 i).toNat < mem.size)
    ∧ mem.size ≤ (address + BitVec.ofNat 32 k).toNat
    ∧ decode 0x7d 0x20 (k + 1) (payload.drop (colon + 2)) = some (data, rest)
    ∧ memoryBytes mem k address = data.take k

/-- A write is refused without a change: both numbers are there, and it starts outside memory or
runs out of it.
-/
def RefusedWrite (mem : Memory) (payload : List (BitVec 8)) : Prop :=
  ∃ address size : BitVec 32,
    scanHexPair (arguments payload) = (some (address.toNat : Int), some (size.toNat : Int))
    ∧ (mem.size ≤ address.toNat ∨ RunsOut mem address size payload)

/-- The arguments are acceptable, a read is of few bytes and a register number starts with a
decimal digit; or the arguments are refused.
-/
def Manageable (mem : Memory) (command : BitVec 8) (args : List (BitVec 8)) : Prop :=
  Acceptable mem command args
    ∧ (command = ascii 'm' → ∃ size, ReadArguments mem size args ∧ size.toNat ≤ 509)
    ∧ (command = ascii 'p' → ∃ c, args.head? = some c ∧ (decimalDigit c).isSome)
  ∨ command = ascii 'H' ∧ RefusedThread args
  ∨ command = ascii 'X' ∧ RefusedWrite mem (command :: args)

theorem isErrorReply_E01 : IsErrorReply (text "E01") :=
  ⟨1, by decide⟩

theorem isErrorReply_E02 : IsErrorReply (text "E02") :=
  ⟨2, by decide⟩

theorem not_isErrorReply_OK : ¬ IsErrorReply (text "OK") :=
  not_isErrorReply (by decide)

/-- OK is for acceptable arguments only, whatever was done to the processor. -/
theorem answered_OK (gdb : Session) (command : BitVec 8) (args : List (BitVec 8)) (arm : ArmCore)
    : Answered gdb command args (Session.replied { gdb.acknowledged with arm } (text "OK"))
      ↔ Acceptable gdb.arm.mem command args := by
  have sent : ({ gdb.acknowledged with arm } : Session).sent = gdb.acknowledged.sent := rfl
  exact answered_iff_acceptable sent not_isErrorReply_OK

/-- E02 is for acceptable arguments, or where nothing was changed. -/
theorem answered_E02 (gdb : Session) (command : BitVec 8) (args : List (BitVec 8)) (arm : ArmCore)
    : Answered gdb command args (Session.replied { gdb.acknowledged with arm } (text "E02"))
      ↔ Acceptable gdb.arm.mem command args ∨ arm.reg = gdb.arm.reg ∧ arm.mem = gdb.arm.mem := by
  have sent : ({ gdb.acknowledged with arm } : Session).sent = gdb.acknowledged.sent := rfl
  rw [answered_iff sent]
  constructor
  · intro refused
    by_cases acceptable : Acceptable gdb.arm.mem command args
    · exact .inl acceptable
    · exact .inr (refused acceptable).2
  · rintro (acceptable | unchanged) malformed
    · exact absurd acceptable malformed
    · exact ⟨isErrorReply_E02, unchanged⟩

section Commands

variable {env : Env} {gdb : Session} {args digits : List (BitVec 8)} (behind : List (BitVec 8))

/-- Reading the arguments as a string is permitted. -/
theorem permitted_readString (command : BitVec 8) (args : List (BitVec 8))
    : Permitted (command :: args) (.readString 2) := by
  simp [Permitted, terminator]

theorem withstands_readGeneralRegisters (valid : ChecksumDigits (ascii 'g' :: args) digits)
    : Withstands env gdb (ascii 'g') args digits behind ↔ args = [] := by
  have found : handler env (ascii 'g') = some fun _ _ => readGeneralRegisters env := rfl
  have noError : ¬ IsErrorReply (registersText env gdb.acknowledged.arm) :=
    not_isErrorReply (by rw [length_registersText]; decide)
  rw [withstands_iff_handle found gdb args behind valid,
    meets_readGeneralRegisters (permitted_write _), answered_iff_acceptable rfl noError]
  exact Iff.rfl

theorem withstands_reason (valid : ChecksumDigits (ascii '?' :: args) digits)
    : Withstands env gdb (ascii '?') args digits behind ↔ args = [] := by
  have found : handler env (ascii '?') = some fun _ _ => reason := rfl
  have noError : ¬ IsErrorReply (text (gdbSendStopReason gdb.acknowledged.toGdbProtocolData)) := by
    intro error
    have head := error.head
    unfold gdbSendStopReason at head
    split at head
    · exact absurd head (by decide)
    · split at head <;> exact absurd head (by decide)
  rw [withstands_iff_handle found gdb args behind valid]
  exact (meets_sendStopReason (permitted_write _)).trans (answered_iff_acceptable rfl noError)

theorem withstands_query (valid : ChecksumDigits (ascii 'q' :: args) digits)
    : Withstands env gdb (ascii 'q') args digits behind := by
  have found : handler env (ascii 'q') = some query := rfl
  rw [withstands_iff_handle found gdb args behind valid, meets_query (permitted_write _)]
  exact ⟨permitted_readString _ args,
    (answered_iff rfl _).mpr fun malformed => absurd trivial malformed⟩

/-- A read is answered in the packet iff it is acceptable and of few bytes: its replies are no
errors.
-/
theorem withstands_readMemory (valid : ChecksumDigits (ascii 'm' :: args) digits)
    : Withstands env gdb (ascii 'm') args digits behind
      ↔ ∃ size, ReadArguments gdb.arm.mem size args ∧ size.toNat ≤ 509 := by
  have found : handler env (ascii 'm') = some (readMemory env) := rfl
  have noError (size address : BitVec 32)
      : ¬ IsErrorReply (memoryReply gdb.acknowledged.arm.mem size address) := by
    refine not_isErrorReply ?_
    rw [memoryReply, length_hexText]
    omega
  have mem : gdb.acknowledged.arm.mem = gdb.arm.mem := rfl
  rw [withstands_iff_handle found gdb args behind valid, meets_readMemory (permitted_write _),
    stringAt_arguments]
  simp only [answered_iff_acceptable rfl (noError _ _)]
  have read {size : BitVec 32} (acceptable : ReadArguments gdb.arm.mem size args)
      : ∃ address : BitVec 32,
          scanHexPair (arguments (ascii 'm' :: args))
            = (some (address.toNat : Int), some (size.toNat : Int))
          ∧ readable gdb.arm.mem size.toNat address = size.toNat := by
    obtain ⟨address, addressText, sizeText, rfl, isAddress, isSize, inside⟩ := acceptable
    refine ⟨address, ?_, readable_eq_of_inside _ _ _ (inside_of_add_le inside)⟩
    rw [← isAddress.2, ← isSize.2]
    exact scanHexPair_readRequest isAddress.1 isSize.1
  have room (n : Nat) : 2 * n + 4 < MAX_PACKET_SIZE ↔ n ≤ 509 := by
    simp only [MAX_PACKET_SIZE]
    omega
  rw [mem, room]
  constructor
  · rintro ⟨-, -, -, fits, acceptable⟩
    obtain ⟨size, acceptable⟩ : ∃ size, ReadArguments gdb.arm.mem size args := acceptable
    obtain ⟨address, numbers, all⟩ := read acceptable
    rw [numbers, scannedValue_toNat, scannedValue_toNat, all] at fits
    exact ⟨size, acceptable, fits⟩
  · rintro ⟨size, acceptable, few⟩
    obtain ⟨address, numbers, all⟩ := read acceptable
    rw [numbers, scannedValue_toNat, scannedValue_toNat, all]
    have parsed (value : BitVec 32) : IsUnsigned (some (value.toNat : Int)) :=
      (isUnsigned_iff _).mpr ⟨value, rfl⟩
    exact ⟨permitted_readString _ args, fun unparsed => absurd (parsed size) unparsed,
      fun _ unparsed => absurd (parsed address) unparsed, few, ⟨size, acceptable⟩⟩

/-- A register is read iff its number is one that `atoi` sees, too. -/
theorem withstands_readRegisterRequest (valid : ChecksumDigits (ascii 'p' :: args) digits)
    : Withstands env gdb (ascii 'p') args digits behind
      ↔ IsRegister args ∧ ∃ c, args.head? = some c ∧ (decimalDigit c).isSome := by
  have found : handler env (ascii 'p') = some (readRegisterRequest env) := rfl
  have noError (reg : BitVec 32) : ¬ IsErrorReply (registerText env gdb.acknowledged.arm reg) :=
    not_isErrorReply (by rw [registerText, length_wordText]; decide)
  rw [withstands_iff_handle found gdb args behind valid,
    meets_readRegisterRequest (permitted_write _), stringAt_arguments]
  simp only [answered_iff_acceptable rfl (noError _)]
  refine (and_iff_right (permitted_readString _ args)).trans ?_
  have refused : ¬ Permitted (ascii 'p' :: args) .unparsed := fun h => h
  constructor
  · rintro ⟨parsed, answered⟩
    have register : IsRegister args := by
      split at answered
      · exact answered
      · exact answered.elim
    refine ⟨register, ?_⟩
    rw [arguments_of_noNul _ (noNul_of_isHex register.1)] at parsed
    cases args with
    | nil => exact absurd rfl register.1.1
    | cons c rest =>
        refine ⟨c, rfl, ?_⟩
        by_contra notDecimal
        rw [scanInt_of_isHex register.1, if_neg notDecimal] at parsed
        refine refused (parsed ?_)
        rintro ⟨n, none, -⟩
        cases none
  · rintro ⟨register, c, first, decimal⟩
    rw [arguments_of_noNul _ (noNul_of_isHex register.1)]
    rcases scanInt_of_isRegister register with none | ⟨n, low, read⟩
    · obtain ⟨rest, rfl⟩ : ∃ rest, args = c :: rest := List.head?_eq_some_iff.mp first
      rw [scanInt_of_isHex register.1, if_pos decimal] at none
      cases none
    · rw [read, if_pos (atoiValue_lt env low)]
      exact ⟨fun unparsed => absurd ⟨_, rfl, by omega, by omega⟩ unparsed, register⟩

theorem withstands_writeRegisterRequest (valid : ChecksumDigits (ascii 'P' :: args) digits)
    : Withstands env gdb (ascii 'P') args digits behind ↔ WriteRegisterArguments args := by
  have found : handler env (ascii 'P') = some (writeRegisterRequest env) := rfl
  rw [withstands_iff_handle found gdb args behind valid,
    meets_writeRegisterRequest (permitted_write _), stringAt_arguments]
  refine (and_iff_right (permitted_readString _ args)).trans ?_
  constructor
  · intro met
    cases place : indexOf (arguments (ascii 'P' :: args)) (ascii '=') with
    | none =>
        rw [place] at met
        exact met.elim
    | some i =>
        rw [place] at met
        obtain ⟨-, -, answered⟩ := met
        split at answered
        · rwa [answered_OK, acceptable_writeRegister] at answered
        · exact answered.elim
  · rintro ⟨number, word, rfl, ⟨hex, low⟩, eight, digit⟩
    have noNul : NoNul word := fun c inWord => (hexDigit_plain c (digit c inWord)).2.2.2.2.2
    obtain ⟨whole, equals, read⟩ := parsed_writeRegister hex noNul
    have range : 0 ≤ (hexValue number : Int) ∧ (hexValue number : Int) < 2 ^ 32 := by omega
    have value : (scannedValue env env.unset.reg (some (hexValue number : Int))).toNat < 16 := by
      rw [scannedValue, if_pos range, BitVec.toNat_ofInt]
      omega
    have reads (k : Nat) (below : k < 4)
        : ReadsByte (Permitted (ascii 'P' :: (number ++ ascii '=' :: word)))
            (heldRequest (ascii 'P' :: (number ++ ascii '=' :: word)) digits behind)
            (2 + number.length + 1 + 2 * k) := by
      have place : 2 + number.length + 1 + 2 * k = number.length + (2 * k + 1) + 1 + 1 := by omega
      rw [place]
      refine readsByte_of_hexDigits digits behind ?_ fun c member => digit c ?_
      · rw [List.length_cons, List.length_append, List.length_cons]
        omega
      · rw [List.drop_succ_cons, List.drop_append, List.drop_eq_nil_of_le (by omega),
          List.nil_append, Nat.add_sub_cancel_left, List.drop_succ_cons] at member
        exact List.mem_of_mem_drop member
    rw [whole, equals, read]
    refine ⟨reads, fun unparsed => absurd ⟨_, rfl, range⟩ unparsed, ?_⟩
    rw [Option.map_some, if_pos value, answered_OK, acceptable_writeRegister]
    exact ⟨number, word, rfl, ⟨hex, low⟩, eight, digit⟩

theorem withstands_writeGeneralRegisters (valid : ChecksumDigits (ascii 'G' :: args) digits)
    : Withstands env gdb (ascii 'G') args digits behind ↔ AreWords 42 args := by
  have found : handler env (ascii 'G') = some (writeGeneralRegisters env) := rfl
  rw [withstands_iff_handle found gdb args behind valid,
    meets_writeGeneralRegisters (permitted_write _), answered_OK,
    acceptable_writeGeneralRegisters]
  constructor
  · exact fun met => met.2
  · intro words
    refine ⟨fun i low k below => ?_, words⟩
    have place : 2 + 8 * i + 2 * k = 8 * i + 2 * k + 1 + 1 := by omega
    obtain ⟨length, digit⟩ := words
    rw [place]
    refine readsByte_of_hexDigits digits behind ?_ fun c member => digit c ?_
    · rw [List.length_cons]
      omega
    · rw [List.drop_succ_cons] at member
      exact List.mem_of_mem_drop member

/-- The reply to `H` for a number of 32 bits. -/
theorem threadReply_atoiValue (env : Env) {n : Int} (low : -2 ^ 31 ≤ n) (high : n < 2 ^ 31)
    : threadReply (atoiValue env (some n)) = if -2 < n ∧ n < 1 then text "OK" else text "E01" := by
  have value : (atoiValue env (some n)).toInt = n := by
    rw [atoiValue, if_pos ⟨low, high⟩, BitVec.toInt_ofInt, Int.bmod_def]
    omega
  rw [threadReply, value]
  exact if_congr and_comm rfl rfl

/-- `atoi` reads the number of any thread and that of all threads. -/
theorem scanInt_thread {id : List (BitVec 8)} (any : IsHex id ∧ hexValue id = 0 ∨ id = text "-1")
    : ∃ n : Int, scanInt (id.takeWhile fun c => c ≠ 0) = some n ∧ -2 ^ 31 ≤ n ∧ n < 2 ^ 31 := by
  rcases any with ⟨hex, zero⟩ | rfl
  · have noNul : NoNul id := noNul_of_isHex hex
    rw [noNul.takeWhile_eq, scanInt_of_zero hex zero]
    exact ⟨0, rfl, by decide, by decide⟩
  · exact ⟨-1, by decide +kernel, by decide, by decide⟩

/-- A thread is selected iff it stands for any or for all; other numbers are refused. -/
theorem withstands_setThread (valid : ChecksumDigits (ascii 'H' :: args) digits)
    : Withstands env gdb (ascii 'H') args digits behind
      ↔ ThreadArguments args ∨ RefusedThread args := by
  have found : handler env (ascii 'H') = some (setThread env) := rfl
  rw [withstands_iff_handle found gdb args behind valid, meets_setThread (permitted_write _)]
  cases args with
  | nil =>
      refine iff_of_false ?_ ?_
      · rintro ⟨inside, -⟩
        exact absurd inside (by simp [Permitted, terminator])
      · rintro (⟨type, id, none, -⟩ | ⟨type, id, none, -⟩) <;> cases none
  | cons type id =>
      have first : Permitted (ascii 'H' :: type :: id) (.readByte 2) := by
        simp [Permitted, terminator]
      have second : Permitted (ascii 'H' :: type :: id) (.readString 3) := by
        simp [Permitted, terminator]
      have read : (heldRequest (ascii 'H' :: type :: id) digits behind).getD 2 0 = type :=
        getD_heldRequest (ascii 'H' :: type :: id) digits behind 1 (by simp)
      have string : stringAt (heldRequest (ascii 'H' :: type :: id) digits behind) 3
          = id.takeWhile fun c => c ≠ 0 :=
        stringAt_heldRequest (ascii 'H' :: type :: id) digits behind (by simp : 2 ≤ _)
      rw [read, string]
      refine (and_iff_right first).trans ((and_iff_right second).trans ?_)
      by_cases known : type = ascii 'c' ∨ type = ascii 'g'
      · rw [if_pos known]
        constructor
        · rintro ⟨parsed, answered⟩
          obtain ⟨n, number, low, high⟩ : IsInt (scanInt (id.takeWhile fun c => c ≠ 0)) := by
            by_contra unparsed
            exact (parsed unparsed).elim
          rw [number, threadReply_atoiValue env low high] at answered
          by_cases selected : -2 < n ∧ n < 1
          · rw [if_pos selected, answered_iff_acceptable rfl not_isErrorReply_OK,
              acceptable_setThread] at answered
            exact .inl answered
          · exact .inr ⟨type, id, rfl, fun _ => ⟨n, number, low, high, selected⟩⟩
        · rintro (acceptable | ⟨_, _, same, refused⟩)
          · have form := acceptable
            obtain ⟨_, _, same, -, any⟩ := form
            obtain ⟨rfl, rfl⟩ := List.cons.inj same
            refine ⟨fun unparsed => absurd (scanInt_thread any) unparsed, ?_⟩
            exact answered_of_acceptable rfl _ ((acceptable_setThread _ _).mpr acceptable)
          · obtain ⟨rfl, rfl⟩ := List.cons.inj same
            obtain ⟨n, number, low, high, other⟩ := refused known
            rw [number, threadReply_atoiValue env low high, if_neg other]
            refine ⟨fun unparsed => absurd ⟨n, rfl, low, high⟩ unparsed, ?_⟩
            exact (answered_iff rfl _).mpr fun _ => ⟨isErrorReply_E01, rfl, rfl⟩
      · rw [if_neg known]
        refine iff_of_true ?_ (.inr ⟨type, id, rfl, fun same => absurd same known⟩)
        exact (answered_iff rfl _).mpr fun _ => ⟨isErrorReply_E01, rfl, rfl⟩

/-- What the loop of `write_memory_binary` and the reply to it amount to. -/
theorem answered_content {i : Nat}
    (colon : indexOf (arguments (ascii 'X' :: args)) (ascii ':') = some i)
    (size address : BitVec 32)
    : let stored := storedBinary (heldRequest (ascii 'X' :: args) digits behind) size.toNat address
        (2 + i + 1) gdb.arm.mem
      let k := readable gdb.arm.mem size.toNat address
      ReadsContent (Permitted (ascii 'X' :: args)) (heldRequest (ascii 'X' :: args) digits behind)
          gdb.arm.mem.size size.toNat address (2 + i + 1)
        ∧ Answered gdb (ascii 'X') args
            (Session.replied
              { gdb.acknowledged with arm := { gdb.arm with mem := stored.2 } }
              (if stored.1 then text "OK" else text "E02"))
      ↔ ∃ data rest,
          decode 0x7d 0x20 (min (k + 1) size.toNat) ((ascii 'X' :: args).drop (i + 2))
            = some (data, rest)
          ∧ (WriteArguments gdb.arm.mem args
            ∨ k < size.toNat ∧ memoryBytes gdb.arm.mem k address = data.take k) := by
  have inside := indexOf_arguments_lt colon
  have held := drop_heldRequest (ascii 'X' :: args) digits behind inside
  have taken {data rest : List (BitVec 8)}
      (decoded
        : decode 0x7d 0x20 (min (readable gdb.arm.mem size.toNat address + 1) size.toNat)
            ((ascii 'X' :: args).drop (i + 2))
          = some (data, rest))
      (below : readable gdb.arm.mem size.toNat address < size.toNat)
      : (data.take (readable gdb.arm.mem size.toNat address)).length
        = readable gdb.arm.mem size.toNat address := by
    rw [List.length_take, length_of_decode decoded]
    omega
  have first := answered_OK gdb (ascii 'X') args
  have second := answered_E02 gdb (ascii 'X') args
  rw [acceptable_writeMemory] at first second
  dsimp only
  rw [Nat.add_comm 2 i, readsContent_iff _ digits behind gdb.arm.mem _ _ inside,
    Option.isSome_iff_exists]
  constructor
  · rintro ⟨⟨⟨data, rest⟩, decoded⟩, answered⟩
    refine ⟨data, rest, decoded, ?_⟩
    rw [storedBinary_eq held decoded] at answered
    by_cases all : readable gdb.arm.mem size.toNat address = size.toNat
    · rw [decide_eq_true all, if_pos rfl, first] at answered
      exact .inl answered
    · rw [decide_eq_false all, if_neg Bool.false_ne_true, second] at answered
      refine answered.imp_right fun ⟨_, same⟩ => ?_
      have below := Nat.lt_of_le_of_ne (readable_le gdb.arm.mem size.toNat address) all
      have length := taken decoded below
      have bound := size.isLt
      have written := memoryBytes_withBytes gdb.arm.mem address
        (data.take (readable gdb.arm.mem size.toNat address)) (by omega)
      change withBytes _ _ _ = _ at same
      rw [same, length] at written
      exact ⟨below, written⟩
  · rintro ⟨data, rest, decoded, allowed⟩
    refine ⟨⟨(data, rest), decoded⟩, ?_⟩
    rw [storedBinary_eq held decoded]
    rcases allowed with acceptable | ⟨below, same⟩
    · split
      · exact (first _).mpr acceptable
      · exact (second _).mpr (.inl acceptable)
    · rw [decide_eq_false (Nat.ne_of_lt below), if_neg Bool.false_ne_true, second]
      refine .inr ⟨rfl, withBytes_self _ _ _ ?_⟩
      rw [taken decoded below]
      exact same

theorem withstands_writeMemoryBinary (valid : ChecksumDigits (ascii 'X' :: args) digits)
    : Withstands env gdb (ascii 'X') args digits behind
      ↔ WriteArguments gdb.arm.mem args ∨ RefusedWrite gdb.arm.mem (ascii 'X' :: args) := by
  have found : handler env (ascii 'X') = some (writeMemoryBinary env) := rfl
  have mem : gdb.acknowledged.arm.mem = gdb.arm.mem := rfl
  rw [withstands_iff_handle found gdb args behind valid, meets_writeMemoryBinary (permitted_write _),
    stringAt_arguments]
  refine (and_iff_right (permitted_readString _ args)).trans ?_
  constructor
  · rintro ⟨hasAddress, hasSize, met⟩
    obtain ⟨address, isAddress⟩ := (isUnsigned_iff _).mp (not_not.mp hasAddress)
    obtain ⟨size, isSize⟩ := (isUnsigned_iff _).mp (not_not.mp hasSize)
    rw [isAddress, isSize, scannedValue_toNat, scannedValue_toNat, mem] at met
    have numbers : scanHexPair (arguments (ascii 'X' :: args))
        = (some (address.toNat : Int), some (size.toNat : Int)) :=
      Prod.ext isAddress isSize
    by_cases outside : gdb.arm.mem.size ≤ address.toNat
    · exact .inr ⟨address, size, numbers, .inl outside⟩
    rw [if_neg outside] at met
    by_cases none : size = 0
    · rw [if_pos none, answered_iff_acceptable rfl not_isErrorReply_OK, acceptable_writeMemory]
        at met
      exact .inl met
    rw [if_neg none] at met
    cases colon : indexOf (arguments (ascii 'X' :: args)) (ascii ':') with
    | none =>
        rw [colon] at met
        exact met.elim
    | some i =>
        rw [colon] at met
        obtain ⟨data, rest, decoded, allowed⟩ := (answered_content behind colon size address).mp met
        refine allowed.imp_right fun ⟨below, same⟩ => ?_
        have first := (readable_eq_iff gdb.arm.mem size.toNat address below).mp rfl
        rw [Nat.min_eq_left below] at decoded
        exact ⟨address, size, numbers,
          .inr ⟨i, _, data, rest, colon, below, first.1, first.2, decoded, same⟩⟩
  · rintro (acceptable | refused)
    · have answered := (acceptable_writeMemory gdb.arm.mem args).mpr acceptable
      have form := acceptable
      obtain ⟨address, size, addressText, sizeText, encoding, data, rfl, isAddress, isSize, decoded,
        fits⟩ := form
      have numbers := scanHexPair_writeRequest isAddress.1 isSize.1 encoding
      have colon := indexOf_writeRequest isAddress.1 isSize.1 encoding
      rw [isAddress.2, isSize.2] at numbers
      rw [← writeRequest, numbers, scannedValue_toNat, scannedValue_toNat, mem]
      refine ⟨fun unparsed => absurd ((isUnsigned_iff _).mpr ⟨address, rfl⟩) unparsed,
        fun unparsed => absurd ((isUnsigned_iff _).mpr ⟨size, rfl⟩) unparsed, ?_⟩
      split
      · exact answered_of_acceptable rfl _ answered
      split
      · exact answered_of_acceptable rfl _ answered
      rw [colon]
      refine (answered_content behind colon size address).mpr ⟨data, [], ?_, .inl acceptable⟩
      have all := readable_eq_of_inside gdb.arm.mem size.toNat address (inside_of_add_le fits)
      rw [← writeRequest, drop_writeRequest, all, Nat.min_eq_right (Nat.le_succ _)]
      exact decoded
    · obtain ⟨address, size, numbers, refused⟩ := refused
      rw [numbers, scannedValue_toNat, scannedValue_toNat, mem]
      refine ⟨fun unparsed => absurd ((isUnsigned_iff _).mpr ⟨address, rfl⟩) unparsed,
        fun unparsed => absurd ((isUnsigned_iff _).mpr ⟨size, rfl⟩) unparsed, ?_⟩
      by_cases outside : gdb.arm.mem.size ≤ address.toNat
      · rw [if_pos outside]
        exact (answered_iff rfl _).mpr fun _ => ⟨isErrorReply_E02, rfl, rfl⟩
      · obtain ⟨i, k, data, rest, colon, below, before, ended, decoded, same⟩ :=
          refused.resolve_left outside
        have first := (readable_eq_iff gdb.arm.mem size.toNat address below).mpr ⟨before, ended⟩
        have notNone : ¬ size = 0 := by
          rintro rfl
          exact absurd below (Nat.not_lt_zero k)
        rw [if_neg outside, if_neg notNone, colon]
        refine (answered_content behind colon size address).mpr ⟨data, rest, ?_, .inr ?_⟩
        · rw [first, Nat.min_eq_left below]
          exact decoded
        · rw [first]
          exact ⟨below, same⟩

end Commands

/-- The other commands only need acceptable arguments. -/
theorem manageable_iff_acceptable (mem : Memory) {command : BitVec 8} (args : List (BitVec 8))
    (other : command ∉ text "mpHX")
    : Manageable mem command args ↔ Acceptable mem command args := by
  have differs {c : Char} (listed : c ∈ "mpHX".toList) : ¬ command = ascii c := by
    rintro rfl
    exact other (List.mem_map_of_mem listed)
  have notRead := differs (by decide : 'm' ∈ _)
  have notRegister := differs (by decide : 'p' ∈ _)
  have notThread := differs (by decide : 'H' ∈ _)
  have notWrite := differs (by decide : 'X' ∈ _)
  simp only [Manageable, notRead, notRegister, notThread, notWrite, false_implies, false_and,
    or_false, and_true]

/-- The server withstands a packet iff its arguments are manageable. Witness: one case for each
command.
-/
theorem withstands_iff (env : Env) (gdb : Session) {command : BitVec 8}
    {args digits : List (BitVec 8)} (behind : List (BitVec 8))
    (known : command ∈ text "gGmpPXqH?") (valid : ChecksumDigits (command :: args) digits)
    : Withstands env gdb command args digits behind ↔ Manageable gdb.arm.mem command args := by
  obtain ⟨c, listed, rfl⟩ := List.mem_map.mp known
  have cases : c = 'g' ∨ c = 'G' ∨ c = 'm' ∨ c = 'p' ∨ c = 'P' ∨ c = 'X' ∨ c = 'q' ∨ c = 'H'
      ∨ c = '?' := by
    simpa using listed
  rcases cases with rfl | rfl | rfl | rfl | rfl | rfl | rfl | rfl | rfl
  · rw [manageable_iff_acceptable _ _ (by decide)]
    exact withstands_readGeneralRegisters behind valid
  · rw [manageable_iff_acceptable _ _ (by decide), acceptable_writeGeneralRegisters]
    exact withstands_writeGeneralRegisters behind valid
  · rw [withstands_readMemory behind valid, Manageable, acceptable_readMemory]
    simp +decide only [false_implies, false_and, or_false, and_true, true_implies]
    exact ⟨fun ⟨size, word, few⟩ => ⟨⟨size, word⟩, ⟨size, word, few⟩⟩, And.right⟩
  · rw [withstands_readRegisterRequest behind valid, Manageable, acceptable_readRegister]
    simp +decide only [false_implies, false_and, or_false, true_and, true_implies]
  · rw [manageable_iff_acceptable _ _ (by decide), acceptable_writeRegister]
    exact withstands_writeRegisterRequest behind valid
  · rw [withstands_writeMemoryBinary behind valid, Manageable, acceptable_writeMemory]
    simp +decide only [false_implies, false_and, and_true, false_or, true_and]
  · rw [manageable_iff_acceptable _ _ (by decide)]
    exact iff_of_true (withstands_query behind valid) trivial
  · rw [withstands_setThread behind valid, Manageable, acceptable_setThread]
    simp +decide only [false_implies, false_and, and_true, or_false, true_and]
  · rw [manageable_iff_acceptable _ _ (by decide)]
    exact withstands_reason behind valid

/-- `m0,4` of a memory with four bytes. -/
theorem readFourBytes_withstood
    : Withstands .plain (oneWordSession 4) (ascii 'm') (text "0,4") (checksumText (text "m0,4")) [] := by
  have word : ReadArguments (oneWordSession 4).arm.mem 4#32 (text "0,4") :=
    ⟨0#32, text "0", text "4", by decide, by decide +kernel, by decide +kernel, by decide⟩
  have few : (4#32).toNat ≤ 509 := by decide
  have noRegister : ¬ ascii 'm' = ascii 'p' := by decide
  refine (withstands_iff .plain (oneWordSession 4) [] (by decide) (by decide +kernel)).mpr
    (.inl ⟨(acceptable_readMemory _ _).mpr ⟨_, word⟩, fun _ => ⟨_, word, few⟩, ?_⟩)
  exact fun same => absurd same noRegister

/-- `p19` asks for the CPSR by the number that it has among the registers: the assertion fails. -/
theorem readCpsr_notWithstood
    : ChecksumDigits (text "p19") (checksumText (text "p19"))
      ∧ ¬ Withstands .plain (oneWordSession 4) (ascii 'p') (text "19") (checksumText (text "p19"))
          [] := by
  have valid : ChecksumDigits (ascii 'p' :: text "19") (checksumText (text "p19")) := by
    decide +kernel
  have number : hexValue (text "19") = 25 := by decide +kernel
  refine ⟨valid, fun met => ?_⟩
  obtain ⟨⟨-, low⟩, -⟩ := (withstands_readRegisterRequest [] valid).mp met
  rw [number] at low
  exact absurd low (by decide)

end Armator.Gdb
