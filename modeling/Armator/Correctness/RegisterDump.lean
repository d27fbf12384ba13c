import Armator.Correctness.RequestForms

/-! The registers that `G` sets are those that `g` reports. -/

namespace Armator.Gdb

open CText Traced

/-- The byte order that the build has for the simulated processor. -/
def Env.targetOrder (env : Env) : ByteOrder :=
  if env.bigEndianSimulator then .big else .little

/-- The byte that two digits of a text stand for. -/
def byteAt (s : List (BitVec 8)) (k : Nat) : BitVec 8 :=
  BitVec.ofNat 8 (hexValue ((s.drop (2 * k)).take 2))

/-- The word that field `i` of a text stands for. -/
def wordAt (order : ByteOrder) (s : List (BitVec 8)) (i : Nat) : BitVec 32 :=
  order.ofBytes 32 fun k => byteAt s (4 * i + k)

/-- The value of a general register in the reply to `g`. -/
def reportedRegister (p : ArmCore) (i : Nat) : BitVec 32 :=
  if i = 15 then armReadRegister p 15 - 4 else armReadRegister p (BitVec.ofNat 8 i)

theorem isBigEndian_eq (host : Host) : host.isBigEndian = if host.order = .big then 1 else 0 := by
  rw [Host.isBigEndian]
  cases host.order <;> decide

/-- The loops of `read_uint32` and `write_uint32` go through the bytes of an object of the host in
the order of the target.
-/
theorem byteIndex_eq (env : Env) {k : Nat} (below : k < 4)
    : env.byteIndex k = env.host.order.place 4 (env.targetOrder.place 4 k) := by
  rw [Env.byteIndex, isBigEndian_eq, Env.targetOrder]
  cases env.host.order <;> cases env.bigEndianSimulator <;> simp [ByteOrder.place]
  omega

theorem byteOf_byteIndex (env : Env) (value : BitVec 32) {k : Nat} (below : k < 4)
    : env.host.order.byteOf value (env.byteIndex k) = env.targetOrder.byteOf value k := by
  rw [ByteOrder.byteOf, byteIndex_eq env below,
    env.host.order.place_place (env.targetOrder.place_lt below), ByteOrder.byteOf]

/-- A word is printed in the order of the target. -/
theorem wordText_eq (env : Env) (value : BitVec 32)
    : wordText env value
      = (List.range 4).flatMap fun k => printHex2 (env.targetOrder.byteOf value k) := by
  refine List.flatMap_congr fun k member => ?_
  rw [byteOf_byteIndex env value (List.mem_range.mp member)]

/-- Four bytes are read in the order of the target. -/
theorem uint32Value_eq (env : Env) {request : List (BitVec 8)} {data : Nat} (b : Nat → BitVec 8)
    (read : ∀ k < 4, scanHex2 (stringAt request (data + 2 * k)) = some ((b k).toNat : Int))
    : uint32Value env request data = env.targetOrder.ofBytes 32 b := by
  have scanned (old : BitVec 32) (k : Nat) (below : k < 4)
      : scannedValue env old (scanHex2 (stringAt request (data + 2 * k))) = (b k).setWidth 32 := by
    have wide : ((b k).setWidth 32).toNat = (b k).toNat := by
      have bound := (b k).isLt
      rw [BitVec.toNat_setWidth]
      omega
    rw [read k below, ← wide, scannedValue_toNat]
  have narrow (c : BitVec 8) : (c.setWidth 32).setWidth 8 = c := by
    rw [BitVec.setWidth_setWidth_of_le _ (by decide), BitVec.setWidth_eq]
  have assigned (k : Nat) (below : k < 4)
      : uint32Bytes env request data 4 0 (env.unset.value data) (fun _ => 0) (env.byteIndex k)
        = b k := by
    have index : (∀ k, env.byteIndex k = k) ∨ ∀ k, env.byteIndex k = 3 - k := by
      rcases Classical.em (env.host.isBigEndian = if env.bigEndianSimulator then 1 else 0)
        with same | different
      · exact .inl fun k => if_pos same
      · exact .inr fun k => if_neg different
    simp only [uint32Bytes, scanned _ 0 (by decide), scanned _ (0 + 1) (by decide),
      scanned _ (0 + 1 + 1) (by decide), scanned _ (0 + 1 + 1 + 1) (by decide), narrow]
    rcases index with same | reversed
    · simp only [same]
      interval_cases k <;> rfl
    · simp only [reversed]
      interval_cases k <;> rfl
  rw [uint32Value]
  apply BitVec.eq_of_getLsbD_eq
  intro j inside
  have below : env.targetOrder.place 4 (j / 8) < 4 := env.targetOrder.place_lt (by omega)
  have found := assigned _ below
  rw [byteIndex_eq env below, env.targetOrder.place_place (show j / 8 < 4 by omega)] at found
  rw [ByteOrder.getLsbD_ofBytes, ByteOrder.getLsbD_ofBytes]
  exact congrArg (fun c : BitVec 8 => decide (j < 32) && c.getLsbD (j % 8)) found

/-- A field with eight digits is read as its word. -/
theorem uint32Value_heldRequest (env : Env) {command : BitVec 8} {args : List (BitVec 8)}
    (digits behind : List (BitVec 8)) {i : Nat} (inside : 8 * i + 8 ≤ args.length)
    (hex : ∀ c ∈ (args.drop (8 * i)).take 8, (hexDigit c).isSome)
    : uint32Value env (heldRequest (command :: args) digits behind) (2 + 8 * i)
      = wordAt env.targetOrder args i := by
  refine uint32Value_eq env _ fun k below => ?_
  have position : 2 + 8 * i + 2 * k = (2 * (4 * i + k) + 1) + 1 := by omega
  have pair : ((args.drop (8 * i)).take 8 |>.drop (2 * k)).take 2
      = (args.drop (2 * (4 * i + k))).take 2 := by
    rw [List.drop_take, List.drop_drop, List.take_take, Nat.min_eq_left (by omega)]
    congr 2
    omega
  have value
      : (byteAt args (4 * i + k)).toNat = hexValue ((args.drop (2 * (4 * i + k))).take 2) := by
    rw [byteAt, BitVec.toNat_ofNat]
    exact Nat.mod_eq_of_lt (hexValue_take_lt _)
  rw [position, scanHex2_heldRequest digits behind, List.drop_succ_cons, value]
  · rw [List.length_cons]
    omega
  · rw [List.drop_succ_cons, ← pair]
    exact fun c member => hex c (List.mem_of_mem_drop (List.mem_of_mem_take member))

/-- A printed word stands for itself in its field. -/
theorem wordAt_of_drop (env : Env) {s more : List (BitVec 8)} {i : Nat} {value : BitVec 32}
    (field : s.drop (8 * i) = wordText env value ++ more)
    : wordAt env.targetOrder s i = value := by
  have bytes (k : Nat) (below : k < 4)
      : byteAt s (4 * i + k) = env.targetOrder.byteOf value k := by
    have pair : (s.drop (2 * (4 * i + k))).take 2 = printHex2 (env.targetOrder.byteOf value k) := by
      have place : 2 * (4 * i + k) = 8 * i + 2 * k := by omega
      rw [place, ← List.drop_drop, field, wordText_eq]
      interval_cases k <;> rfl
    rw [byteAt, pair, hexValue_printHex2, BitVec.ofNat_toNat, BitVec.setWidth_eq]
  rw [wordAt, ByteOrder.ofBytes_congr _ (by decide) bytes,
    ByteOrder.ofBytes_byteOf _ (by decide)]

/-- A printed word is read back wherever it stands. -/
theorem uint32Value_of_drop (env : Env) {request more : List (BitVec 8)} {value : BitVec 32}
    {data : Nat} (held : request.drop data = wordText env value ++ more)
    : uint32Value env request data = value := by
  have bytes (k : Nat) (below : k < 4)
      : scanHex2 (stringAt request (data + 2 * k))
        = some ((env.targetOrder.byteOf value k).toNat : Int) := by
    have digit := hexDigit_printHex2 (env.targetOrder.byteOf value k)
    have kept {c : BitVec 8} (member : c ∈ printHex2 (env.targetOrder.byteOf value k))
        : decide (c ≠ 0) = true :=
      decide_eq_true (hexDigit_plain c (digit c member)).2.2.2.2.2
    obtain ⟨rest, pair⟩ : ∃ rest, request.drop (data + 2 * k)
        = printHex2 (env.targetOrder.byteOf value k) ++ rest := by
      rw [← List.drop_drop, held, wordText_eq]
      interval_cases k <;> exact ⟨_, rfl⟩
    rw [stringAt, pair, List.takeWhile_append_of_pos fun c member => kept member, printHex2,
      List.cons_append, List.cons_append, List.nil_append,
      scanHex2_of_digits (digit _ (by simp [printHex2])) (digit _ (by simp [printHex2]))]
    exact congrArg (fun n : Nat => some (n : Int)) (hexValue_printHex2 _)
  rw [uint32Value_eq env _ bytes, ByteOrder.ofBytes_byteOf _ (by decide)]

theorem hexDigit_wordText (env : Env) (value : BitVec 32)
    : ∀ c ∈ wordText env value, (hexDigit c).isSome := by
  intro c member
  obtain ⟨k, -, digit⟩ := List.mem_flatMap.mp member
  exact hexDigit_printHex2 _ c digit

/-- Field `i` of a text that has `n` fields of the same width. -/
theorem drop_flatMap_range {width : Nat} {field : Nat → List (BitVec 8)}
    (wide : ∀ i, (field i).length = width) {i n : Nat} (below : i < n)
    : ∃ more, ((List.range n).flatMap field).drop (width * i) = field i ++ more := by
  obtain ⟨m, rfl⟩ : ∃ m, n = i + (1 + m) := ⟨n - i - 1, by omega⟩
  have before : ((List.range i).flatMap field).length = width * i := by
    simp [List.length_flatMap, wide, Nat.mul_comm]
  rw [List.range_add, List.flatMap_append, ← before, List.drop_left, Nat.add_comm 1,
    List.range_succ_eq_map, List.map_cons, List.flatMap_cons]
  exact ⟨_, rfl⟩

/-- Field `i` of the reply to `g`. -/
def reportedField (env : Env) (p : ArmCore) (i : Nat) : List (BitVec 8) :=
  if i < 16 then wordText env (reportedRegister p i)
  else if i < 41 then text "xxxxxxxx"
  else wordText env (armReadCpsr p)

theorem registersText_eq (env : Env) (p : ArmCore)
    : registersText env p = (List.range 42).flatMap (reportedField env p) := by
  have split : List.range 42
      = List.range 15 ++ [15] ++ (List.range 24).map (16 + ·) ++ [40] ++ [41] := by
    decide
  have low : (List.range 15).flatMap (reportedField env p)
      = (List.range 15).flatMap fun i =>
          wordText env (armReadRegister p (BitVec.ofNat 8 i)) := by
    refine List.flatMap_congr fun i member => ?_
    have below := List.mem_range.mp member
    have notPc : i ≠ 15 := by omega
    rw [reportedField, if_pos (by omega), reportedRegister, if_neg notPc]
  have floats : ((List.range 24).map (16 + ·)).flatMap (reportedField env p)
      = (List.range 24).flatMap fun _ => text "xxxxxxxx" := by
    rw [List.flatMap_map]
    refine List.flatMap_congr fun i member => ?_
    have below := List.mem_range.mp member
    rw [reportedField, if_neg (by omega), if_pos (by omega)]
  rw [split]
  simp only [List.flatMap_append, List.flatMap_singleton, low, floats]
  rfl

theorem length_reportedField (env : Env) (p : ArmCore) (i : Nat)
    : (reportedField env p i).length = 8 := by
  unfold reportedField
  split
  · exact length_wordText _ _
  · split
    · decide
    · exact length_wordText _ _

/-- The processor's registers in the reply. -/
theorem wordAt_registersText (env : Env) (p : ArmCore) {i : Nat} (general : i < 16)
    : wordAt env.targetOrder (registersText env p) i = reportedRegister p i := by
  obtain ⟨more, field⟩ := drop_flatMap_range (length_reportedField env p) (show i < 42 by omega)
  rw [← registersText_eq, reportedField, if_pos general] at field
  exact wordAt_of_drop env field

theorem wordAt_registersText_cpsr (env : Env) (p : ArmCore)
    : wordAt env.targetOrder (registersText env p) 41 = armReadCpsr p := by
  obtain ⟨more, field⟩ := drop_flatMap_range (length_reportedField env p) (show 41 < 42 by decide)
  rw [← registersText_eq] at field
  exact wordAt_of_drop env field

/-- The fields of registers have digits. -/
theorem hexDigit_registersText (env : Env) (p : ArmCore) {i : Nat} (register : i < 16 ∨ i = 41)
    : ∀ c ∈ ((registersText env p).drop (8 * i)).take 8, (hexDigit c).isSome := by
  obtain ⟨more, field⟩ := drop_flatMap_range (length_reportedField env p) (show i < 42 by omega)
  rw [registersText_eq, field,
    List.take_append_of_le_length (Nat.le_of_eq (length_reportedField env p i).symm)]
  intro c member
  have inField := List.mem_of_mem_take member
  unfold reportedField at inField
  rcases register with general | rfl
  · rw [if_pos general] at inField
    exact hexDigit_wordText env _ c inField
  · exact hexDigit_wordText env _ c inField

/-- The processor with other general registers and another CPSR, which is value 41. -/
def setRegisters (value : Nat → BitVec 32) (p : ArmCore) : ArmCore :=
  armWriteCpsr
    ((List.range 16).foldl (fun p i => armWriteRegister p (BitVec.ofNat 8 i) (value i)) p)
    (value 41)

/-- Only the fields of registers count. -/
theorem setRegisters_congr {value other : Nat → BitVec 32}
    (same : ∀ i, i < 16 ∨ i = 41 → value i = other i) (p : ArmCore)
    : setRegisters value p = setRegisters other p := by
  have general : ∀ p, ∀ i ∈ List.range 16,
      armWriteRegister p (BitVec.ofNat 8 i) (value i)
        = armWriteRegister p (BitVec.ofNat 8 i) (other i) := by
    intro p i member
    rw [same i (.inl (List.mem_range.mp member))]
  rw [setRegisters, setRegisters, List.foldl_ext _ _ p general, same 41 (.inr rfl)]

section Written

variable (value : Nat → BitVec 32) (p : ArmCore) (n : Nat)

/-- The loop of `G` sets one register after the other, by induction on their number. -/
theorem readRegister_foldl (few : n ≤ 16) {reg : BitVec 8} (general : reg.toNat < 16)
    : readRegister ((List.range n).foldl
          (fun p i => armWriteRegister p (BitVec.ofNat 8 i) (value i)) p).reg reg
      = if reg.toNat < n then value reg.toNat else readRegister p.reg reg := by
  induction n with
  | zero => rfl
  | succ n ih =>
      have index : (BitVec.ofNat 8 n).toNat = n := by
        rw [BitVec.toNat_ofNat]
        omega
      rw [List.range_succ, List.foldl_append, List.foldl_cons, List.foldl_nil,
        armWriteRegister_reg, readRegister_writeRegister, ih (Nat.le_of_succ_le few)]
      by_cases last : reg.toNat = n
      · have same : BitVec.ofNat 8 n = reg := BitVec.eq_of_toNat_eq (by omega)
        rw [if_pos ⟨same, general⟩, if_pos (by omega), last]
      · have other : BitVec.ofNat 8 n ≠ reg := by
          rintro rfl
          exact last index
        rw [if_neg fun both => other both.1]
        exact if_congr (by omega) rfl rfl

/-- The loop leaves the SPSR, by induction on the number of registers. -/
theorem armReadSpsr_foldl
    : armReadSpsr ((List.range n).foldl
          (fun p i => armWriteRegister p (BitVec.ofNat 8 i) (value i)) p)
      = armReadSpsr p := by
  induction n with
  | zero => rfl
  | succ n ih =>
      rw [List.range_succ, List.foldl_append, List.foldl_cons, List.foldl_nil,
        armReadSpsr_armWriteRegister, ih]

theorem mem_foldl
    : ((List.range n).foldl
          (fun p i => armWriteRegister p (BitVec.ofNat 8 i) (value i)) p).mem
      = p.mem := by
  induction n with
  | zero => rfl
  | succ n ih =>
      rw [List.range_succ, List.foldl_append, List.foldl_cons, List.foldl_nil,
        armWriteRegister_mem, ih]

theorem readRegister_setRegisters {reg : BitVec 8} (general : reg.toNat < 16)
    : readRegister (setRegisters value p).reg reg = value reg.toNat := by
  rw [setRegisters, armWriteCpsr_reg, readRegister_writeCpsr,
    readRegister_foldl value p 16 (Nat.le_refl 16) general, if_pos general]

theorem armReadCpsr_setRegisters : armReadCpsr (setRegisters value p) = value 41 := by
  rw [setRegisters, armReadCpsr_armWriteCpsr]

theorem armReadSpsr_setRegisters : armReadSpsr (setRegisters value p) = armReadSpsr p := by
  rw [setRegisters, armReadSpsr_armWriteCpsr, armReadSpsr_foldl]

theorem setRegisters_mem : (setRegisters value p).mem = p.mem := by
  rw [setRegisters, armWriteCpsr_mem, mem_foldl]

end Written

theorem answers_readGeneralRegisters (env : Env) (gdb : Session)
    : Answers env gdb [ascii 'g'] (registersText env gdb.arm)
        (gdb.acknowledged.replied (registersText env gdb.arm)) := by
  have checked : ∀ i, InPacket (.write i) ↔ i < MAX_PACKET_SIZE := fun _ => Iff.rfl
  have found : handler env (ascii 'g') = some fun _ _ => readGeneralRegisters env := rfl
  have arm : gdb.acknowledged.arm = gdb.arm := rfl
  refine answers_of_handler found (fun digits behind => ?_) rfl
  rw [meets_readGeneralRegisters checked, arm]

/-- `G` sets the registers to the words of its fields. -/
theorem answers_writeGeneralRegisters (env : Env) (gdb : Session) {args : List (BitVec 8)}
    (length : args.length = 336)
    (hex : ∀ i, i < 16 ∨ i = 41 → ∀ c ∈ (args.drop (8 * i)).take 8, (hexDigit c).isSome)
    : Answers env gdb (ascii 'G' :: args) (text "OK")
        (Session.replied
          { gdb.acknowledged with arm := setRegisters (wordAt env.targetOrder args) gdb.arm }
          (text "OK")) := by
  have checked : ∀ i, InPacket (.write i) ↔ i < MAX_PACKET_SIZE := fun _ => Iff.rfl
  have found : handler env (ascii 'G') = some (writeGeneralRegisters env) := rfl
  refine answers_of_handler found (fun digits behind => ?_) rfl
  have written
      : writtenRegisters env (heldRequest (ascii 'G' :: args) digits behind) 2
          gdb.acknowledged.arm
        = setRegisters (wordAt env.targetOrder args) gdb.arm := by
    refine setRegisters_congr (fun i register => ?_) gdb.arm
    exact uint32Value_heldRequest env digits behind (by omega) (hex i register)
  rw [meets_writeGeneralRegisters checked, written]
  exact ⟨fun _ _ _ _ => ⟨trivial, fun _ => trivial⟩, rfl⟩

/-- Registers survive a dump: what `g` reports is restored by `G`, but for the bit of the pc that
no fetch uses, and what `G` sets is reported by `g`.
-/
theorem registers_dumped (env : Env) (gdb : Session)
    : (∃ t u,
        Answers env gdb [ascii 'g'] (registersText env gdb.arm) t
        ∧ Answers env t (ascii 'G' :: registersText env gdb.arm) (text "OK") u
        ∧ (∀ reg, reg < 15 → armReadRegister u.arm reg = armReadRegister gdb.arm reg)
        ∧ armReadCpsr u.arm = armReadCpsr gdb.arm
        ∧ armReadSpsr u.arm = armReadSpsr gdb.arm
        ∧ u.arm.mem = gdb.arm.mem
        ∧ fetchAddress u.arm = fetchAddress gdb.arm)
      ∧ ∀ args, AreWords 42 args
        → (wordAt env.targetOrder args 15).getLsbD 1 = false
        → ∃ t reply u,
            Answers env gdb (ascii 'G' :: args) (text "OK") t
            ∧ Answers env t [ascii 'g'] reply u
            ∧ ∀ i, i < 16 ∨ i = 41
              → wordAt env.targetOrder reply i = wordAt env.targetOrder args i := by
  constructor
  · let reply := registersText env gdb.arm
    let t := gdb.acknowledged.replied reply
    have restored := answers_writeGeneralRegisters env t (length_registersText env gdb.arm)
      fun i register => hexDigit_registersText env gdb.arm register
    refine ⟨t, _, answers_readGeneralRegisters env gdb, restored, ?_, ?_, ?_, ?_, ?_⟩
    · intro reg below
      have low : reg.toNat < 15 := below
      have notPc : reg ≠ 15 := by
        rintro rfl
        exact absurd low (by decide)
      have number : BitVec.ofNat 8 reg.toNat = reg := by
        rw [BitVec.ofNat_toNat, BitVec.setWidth_eq]
      rw [armReadRegister_of_ne _ _ notPc]
      refine (readRegister_setRegisters _ _ (by omega)).trans ?_
      rw [wordAt_registersText env gdb.arm (by omega), reportedRegister, if_neg (by omega), number]
    · exact (armReadCpsr_setRegisters _ _).trans (wordAt_registersText_cpsr env gdb.arm)
    · exact armReadSpsr_setRegisters _ _
    · exact setRegisters_mem _ _
    · refine fetchAddress_of_pc ?_
      exact (readRegister_setRegisters _ _ (by decide)).trans
        (wordAt_registersText env gdb.arm (by decide))
  · intro args words clear
    have written := answers_writeGeneralRegisters env gdb words.1 fun i _ c member =>
      words.2 c (List.mem_of_mem_drop (List.mem_of_mem_take member))
    let p := setRegisters (wordAt env.targetOrder args) gdb.arm
    refine ⟨_, registersText env p, _, written, answers_readGeneralRegisters env _, ?_⟩
    have pc : readRegister p.reg 15 = wordAt env.targetOrder args 15 :=
      readRegister_setRegisters _ _ (by decide)
    rintro i (general | rfl)
    · rw [wordAt_registersText env p general, reportedRegister]
      by_cases last : i = 15
      · rw [if_pos last, last, ← pc]
        exact fetchAddress_of_clear (pc ▸ clear)
      · have index : (BitVec.ofNat 8 i).toNat = i := by
          rw [BitVec.toNat_ofNat]
          omega
        have notPc : BitVec.ofNat 8 i ≠ 15 := by
          intro same
          rw [same] at index
          exact last index.symm
        have read := readRegister_setRegisters (wordAt env.targetOrder args) gdb.arm
          (show (BitVec.ofNat 8 i).toNat < 16 by omega)
        rw [index] at read
        rw [if_neg last, armReadRegister_of_ne _ _ notPc]
        exact read
    · rw [wordAt_registersText_cpsr, armReadCpsr_setRegisters]

/-- A request sets each register to four times its number, and the reply to `g` shows that. -/
theorem writtenRegisters_dumped
    : ∃ t reply u,
        Answers .plain (oneWordSession 4)
          (ascii 'G' :: (List.range 42).flatMap fun i => wordText .plain (BitVec.ofNat 32 (4 * i)))
          (text "OK") t
        ∧ Answers .plain t [ascii 'g'] reply u
        ∧ ∀ i < 16, wordAt Env.plain.targetOrder reply i = BitVec.ofNat 32 (4 * i) := by
  let field (i : Nat) : List (BitVec 8) := wordText .plain (BitVec.ofNat 32 (4 * i))
  let args := (List.range 42).flatMap field
  have value {i : Nat} (inside : i < 42)
      : wordAt Env.plain.targetOrder args i = BitVec.ofNat 32 (4 * i) := by
    have wide (i : Nat) : (field i).length = 8 := length_wordText _ _
    obtain ⟨more, behind⟩ := drop_flatMap_range wide inside
    exact wordAt_of_drop .plain behind
  have words : AreWords 42 args := by
    refine ⟨by decide +kernel, fun c member => ?_⟩
    obtain ⟨i, -, inField⟩ := List.mem_flatMap.mp member
    exact hexDigit_wordText _ _ c inField
  have clear : (wordAt Env.plain.targetOrder args 15).getLsbD 1 = false := by
    rw [value (by decide)]
    decide
  obtain ⟨t, reply, u, written, read, same⟩ :=
    (registers_dumped .plain (oneWordSession 4)).2 args words clear
  exact ⟨t, reply, u, written, read, fun i below =>
    (same i (.inl below)).trans (value (Nat.lt_trans below (by decide)))⟩

end Armator.Gdb
