import Armator.Correctness.Packets

/-! What each request handler meets. -/

namespace Armator.Gdb

open CText Traced

-----------------------------------------------------------------------------------------
-- Numbers
-----------------------------------------------------------------------------------------

/-- A conversion assigned an `unsigned int` the number it read. -/
def IsUnsigned (number : Option Int) : Prop :=
  ∃ n, number = some n ∧ 0 ≤ n ∧ n < 2 ^ 32

/-- `atoi` read a number that an `int` can hold. -/
def IsInt (number : Option Int) : Prop :=
  ∃ n, number = some n ∧ -2 ^ 31 ≤ n ∧ n < 2 ^ 31

/-- What the variable of a conversion holds afterwards. -/
def scannedValue (env : Env) (old : BitVec 32) (number : Option Int) : BitVec 32 :=
  match number with
  | some n => if 0 ≤ n ∧ n < 2 ^ 32 then BitVec.ofInt 32 n else env.scanBeyond n
  | none => old

/-- The result of `atoi`. -/
def atoiValue (env : Env) (number : Option Int) : BitVec 32 :=
  match number with
  | some n => if -2 ^ 31 ≤ n ∧ n < 2 ^ 31 then BitVec.ofInt 32 n else env.atoiBeyond n
  | none => 0

theorem isUnsigned_iff (number : Option Int)
    : IsUnsigned number ↔ ∃ value : BitVec 32, number = some (value.toNat : Int) := by
  constructor
  · rintro ⟨n, rfl, low, high⟩
    refine ⟨BitVec.ofInt 32 n, ?_⟩
    rw [BitVec.toNat_ofInt]
    exact congrArg some (by omega)
  · rintro ⟨value, rfl⟩
    have bound := value.isLt
    exact ⟨_, rfl, by omega, by omega⟩

theorem scannedValue_toNat (env : Env) (old value : BitVec 32)
    : scannedValue env old (some (value.toNat : Int)) = value := by
  have bound := value.isLt
  have unsigned : 0 ≤ (value.toNat : Int) ∧ (value.toNat : Int) < 2 ^ 32 := by omega
  rw [scannedValue, if_pos unsigned]
  apply BitVec.eq_of_toNat_eq
  rw [BitVec.toNat_ofInt]
  omega

section Numbers

variable {allowed : Event → Prop} {stopped : Stop → Prop} {gdb : Session}

theorem meets_useScanned {post : BitVec 32 → Session → Prop} (env : Env) (old : BitVec 32)
    (number : Option Int)
    : Meets allowed stopped post (useScanned env old number) gdb
      ↔ (¬ IsUnsigned number → allowed .unparsed) ∧ post (scannedValue env old number) gdb := by
  cases number with
  | none =>
      have unassigned : ¬ IsUnsigned none := by
        rintro ⟨n, assigned, -⟩
        cases assigned
      simp only [useScanned, scannedValue, meets_bind, meets_log, meets_pure, unassigned,
        not_false_eq_true, forall_const]
  | some n =>
      have exact : IsUnsigned (some n) ↔ 0 ≤ n ∧ n < 2 ^ 32 := by
        simp [IsUnsigned]
      rw [exact]
      by_cases fits : 0 ≤ n ∧ n < 2 ^ 32
      · simp only [useScanned, scannedValue, fits, and_self, if_true, meets_pure, not_true_eq_false,
          false_implies, true_and]
      · simp only [useScanned, scannedValue, fits, if_false, meets_bind, meets_log, meets_pure,
          not_false_eq_true, forall_const]

theorem meets_useAtoi {post : BitVec 32 → Session → Prop} (env : Env) (number : Option Int)
    : Meets allowed stopped post (useAtoi env number) gdb
      ↔ (¬ IsInt number → allowed .unparsed) ∧ post (atoiValue env number) gdb := by
  cases number with
  | none =>
      have unassigned : ¬ IsInt none := by
        rintro ⟨n, assigned, -⟩
        cases assigned
      simp only [useAtoi, atoiValue, meets_bind, meets_log, meets_pure, unassigned,
        not_false_eq_true, forall_const]
  | some n =>
      have exact : IsInt (some n) ↔ -2 ^ 31 ≤ n ∧ n < 2 ^ 31 := by
        simp [IsInt]
      rw [exact]
      by_cases fits : -2 ^ 31 ≤ n ∧ n < 2 ^ 31
      · simp only [useAtoi, atoiValue, fits, and_self, if_true, meets_pure, not_true_eq_false,
          false_implies, true_and]
      · simp only [useAtoi, atoiValue, fits, if_false, meets_bind, meets_log, meets_pure,
          not_false_eq_true, forall_const]

theorem meets_readString {post : List (BitVec 8) → Session → Prop} (request : List (BitVec 8))
    (position : Nat)
    : Meets allowed stopped post (readString request position) gdb
      ↔ allowed (.readString position) ∧ post (stringAt request position) gdb := by
  simp only [readString, meets_bind, meets_log, meets_pure]

theorem meets_readByte {post : BitVec 8 → Session → Prop} (request : List (BitVec 8))
    (position : Nat)
    : Meets allowed stopped post (readByte request position) gdb
      ↔ allowed (.readByte position) ∧ post (request.getD position 0) gdb := by
  simp only [readByte, meets_bind, meets_log, meets_pure]

end Numbers

-----------------------------------------------------------------------------------------
-- Words in hexadecimal
-----------------------------------------------------------------------------------------

/-- The loop of `read_uint32` without its events. -/
def uint32Bytes (env : Env) (request : List (BitVec 8)) (data : Nat)
    : Nat → Nat → BitVec 32 → (Nat → BitVec 8) → Nat → BitVec 8
  | 0, _, _, bytes => bytes
  | n + 1, k, value, bytes =>
      let value := scannedValue env value (scanHex2 (stringAt request (data + 2 * k)))
      uint32Bytes env request data n (k + 1) value
        fun j => if j = env.byteIndex k then value.setWidth 8 else bytes j

/-- The result of `read_uint32`. -/
def uint32Value (env : Env) (request : List (BitVec 8)) (data : Nat) : BitVec 32 :=
  env.host.order.ofBytes 32
    (uint32Bytes env request data 4 0 (env.unset.value data) fun _ => 0)

/-- The events of a conversion of `read_uint32` are allowed. -/
def ReadsByte (allowed : Event → Prop) (request : List (BitVec 8)) (position : Nat) : Prop :=
  allowed (.readString position)
  ∧ (¬ IsUnsigned (scanHex2 (stringAt request position)) → allowed .unparsed)

/-- The digits of a word in the byte order of the build. -/
def wordText (env : Env) (value : BitVec 32) : List (BitVec 8) :=
  (List.range 4).flatMap fun k =>
    printHex2 (env.host.order.byteOf value (env.byteIndex k))

theorem length_wordText (env : Env) (value : BitVec 32) : (wordText env value).length = 8 := rfl

theorem printDigit_ne_zero {d : Nat} (low : d < 16) : printDigit d ≠ 0 := by
  interval_cases d <;> decide

theorem noNul_printHex2 (b : BitVec 8) : NoNul (printHex2 b) := by
  intro c member
  obtain ⟨d, low, rfl⟩ := exists_of_mem_printHex2 member
  exact printDigit_ne_zero low

theorem noNul_wordText (env : Env) (value : BitVec 32) : NoNul (wordText env value) := by
  intro c member
  obtain ⟨k, -, digit⟩ := List.mem_flatMap.mp member
  exact noNul_printHex2 _ c digit

section Words

variable {allowed : Event → Prop} {stopped : Stop → Prop} {gdb : Session}

/-- Each step reads two digits at its place, by induction on the number of steps. -/
theorem meets_readUint32Loop {post : (Nat → BitVec 8) → Session → Prop} (env : Env)
    (request : List (BitVec 8)) (data n k : Nat) (value : BitVec 32) (bytes : Nat → BitVec 8)
    : Meets allowed stopped post (readUint32Loop env request data n k value bytes) gdb
      ↔ (∀ i < n, ReadsByte allowed request (data + 2 * (k + i)))
        ∧ post (uint32Bytes env request data n k value bytes) gdb := by
  induction n generalizing k value bytes with
  | zero =>
      rw [readUint32Loop, meets_pure]
      exact (and_iff_right fun i below => absurd below (Nat.not_lt_zero i)).symm
  | succ n ih =>
      simp only [readUint32Loop, meets_bind, meets_readString, meets_useScanned, ih,
        uint32Bytes]
      constructor
      · rintro ⟨reads, parsed, later, met⟩
        refine ⟨fun i below => ?_, met⟩
        cases i with
        | zero => exact ⟨reads, parsed⟩
        | succ i =>
            have next := later i (by omega)
            rwa [Nat.add_assoc, Nat.add_comm 1 i] at next
      · rintro ⟨all, met⟩
        have first := all 0 (by omega)
        refine ⟨first.1, first.2, fun i below => ?_, met⟩
        rw [Nat.add_assoc, Nat.add_comm 1 i]
        exact all (i + 1) (by omega)

theorem meets_readUint32 {post : BitVec 32 → Session → Prop} (env : Env)
    (request : List (BitVec 8)) (data : Nat)
    : Meets allowed stopped post (readUint32 env request data) gdb
      ↔ (∀ i < 4, ReadsByte allowed request (data + 2 * i))
        ∧ post (uint32Value env request data) gdb := by
  simp only [readUint32, meets_bind, meets_readUint32Loop, meets_pure, Nat.zero_add, uint32Value]

/-- A loop that appends texts of one width to the one in the buffer. -/
theorem meets_each_chunks {post : Unit → Session → Prop} (before : List (BitVec 8)) (width : Nat)
    (chunk : Nat → List (BitVec 8)) (wide : ∀ k, (chunk k).length = width)
    (body : Nat → Act Unit) (n : Nat)
    (step
      : ∀ k < n, ∀ (next : Unit → Session → Prop) (sofar : List (BitVec 8)),
          sofar.length = before.length + width * k
          → (Meets allowed stopped next (body k) (gdb.withText sofar)
            ↔ next () (gdb.withText (sofar ++ chunk k))))
    : Meets allowed stopped post (each (List.range n) body) (gdb.withText before)
      ↔ post () (gdb.withText (before ++ (List.range n).flatMap chunk)) := by
  let state (k : Nat) := gdb.withText (before ++ (List.range k).flatMap chunk)
  have start : state 0 = gdb.withText before := by
    simp only [state, List.range_zero, List.flatMap_nil, List.append_nil]
  rw [← start]
  refine meets_each_range state body n fun k below next => ?_
  have length : (before ++ (List.range k).flatMap chunk).length = before.length + width * k := by
    simp [List.length_flatMap, wide, Nat.mul_comm]
  have joined : before ++ (List.range k).flatMap chunk ++ chunk k
      = before ++ (List.range (k + 1)).flatMap chunk := by
    rw [List.range_succ, List.flatMap_append, List.append_assoc, List.flatMap_singleton]
  rw [step k below next _ length, joined]

variable {post : Unit → Session → Prop} (checked : ∀ i, allowed (.write i) ↔ i < MAX_PACKET_SIZE)

include checked

/-- A word behind the text in the buffer. -/
theorem meets_writeUint32 (env : Env) (value : BitVec 32) (before : List (BitVec 8))
    (fits : before.length + 9 < MAX_PACKET_SIZE)
    : Meets allowed stopped post (writeUint32 env (1 + before.length) value)
        (gdb.withText before)
      ↔ post () (gdb.withText (before ++ wordText env value)) := by
  have nul : putBytes (gdb.withText (before ++ wordText env value)).packet
        (1 + before.length + 8) [0]
      = (gdb.withText (before ++ wordText env value)).packet := by
    have joined := putBytes_append gdb.packet 1 (before ++ wordText env value) [0] [0]
      (Nat.le_refl _)
    rwa [List.length_append, length_wordText, ← Nat.add_assoc] at joined
  have last : 1 + before.length + 8 < MAX_PACKET_SIZE := by omega
  rw [writeUint32, meets_bind,
    meets_each_chunks before 2
      (fun k => printHex2 (env.host.order.byteOf value (env.byteIndex k))) (fun _ => rfl),
    meets_writePacket checked]
  · change _ ∧ post () { gdb.withText (before ++ wordText env value) with
      packet := putBytes (gdb.withText (before ++ wordText env value)).packet _ [0] } ↔ _
    rw [nul]
    exact and_iff_right last
  · intro k below next sofar length
    have place : 1 + before.length + 2 * k = 1 + sofar.length := by omega
    rw [place, meets_writeText_append checked _ _ (by omega), length_printHex2]
    exact and_iff_right (by omega)

/-- At the start of the buffer the text before is empty. -/
theorem meets_writeText_start (s : List (BitVec 8))
    : Meets allowed stopped post (writeText 1 s) gdb
      ↔ Meets allowed stopped post (writeText 1 s) (gdb.withText []) := by
  have appended : Meets allowed stopped post (writeText 1 s) (gdb.withText []) ↔ _ :=
    meets_writeText_append checked [] s (by decide)
  rw [appended, meets_writeText checked 1 s (by decide), List.length_nil, Nat.zero_add,
    Nat.add_comm s.length]
  exact Iff.rfl

theorem meets_writeUint32_start (env : Env) (value : BitVec 32)
    : Meets allowed stopped post (writeUint32 env 1 value) gdb
      ↔ Meets allowed stopped post (writeUint32 env 1 value) (gdb.withText []) := by
  have steps : List.range 4 = [0, 1, 2, 3] := rfl
  simp only [writeUint32, steps, meets_bind, meets_each_cons]
  exact meets_writeText_start checked _

/-- A word alone in the buffer. -/
theorem meets_writeUint32_alone (env : Env) (value : BitVec 32)
    : Meets allowed stopped post (writeUint32 env 1 value) gdb
      ↔ post () (gdb.withText (wordText env value)) := by
  rw [meets_writeUint32_start checked]
  exact meets_writeUint32 checked env value [] (by decide)

end Words

-----------------------------------------------------------------------------------------
-- Queries and registers
-----------------------------------------------------------------------------------------

/-- The reply to `q`. -/
def queryReply (s : List (BitVec 8)) : List (BitVec 8) :=
  if s = text "Offsets" then text "Text=0;Data=0;Bss=0"
  else if s.take 9 = text "Supported" then text "PacketSize=400"
  else if s = text "TStatus" then text "T0;tnotrun:0"
  else []

/-- The reply to `g`: registers, floating-point registers that are not there, and the CPSR. -/
def registersText (env : Env) (p : ArmCore) : List (BitVec 8) :=
  ((List.range 15).flatMap fun i => wordText env (armReadRegister p (BitVec.ofNat 8 i)))
  ++ wordText env (armReadRegister p 15 - 4)
  ++ ((List.range 24).flatMap fun _ => text "xxxxxxxx")
  ++ text "xxxxxxxx"
  ++ wordText env (armReadCpsr p)

/-- The reply to `p` for a register below 16. -/
def registerText (env : Env) (p : ArmCore) (reg : BitVec 32) : List (BitVec 8) :=
  wordText env (armReadRegister p (reg.setWidth 8) - (if reg = 15 then 4 else 0))

/-- The reply to `H` for the threads `c` and `g`. -/
def threadReply (value : BitVec 32) : List (BitVec 8) :=
  if value.toInt < 1 ∧ -2 < value.toInt then text "OK" else text "E01"

/-- A reply without NUL that fits into every packet. -/
def IsShort (reply : List (BitVec 8)) : Prop :=
  NoNul reply ∧ reply.length < 100

instance (reply : List (BitVec 8)) : Decidable (IsShort reply) :=
  inferInstanceAs (Decidable (_ ∧ _))

theorem noNul_registersText (env : Env) (p : ArmCore) : NoNul (registersText env p) := by
  have blank : NoNul (text "xxxxxxxx") := by decide +kernel
  refine ((((?_ : NoNul _).append (noNul_wordText _ _)).append ?_).append blank).append
    (noNul_wordText _ _)
  · intro c member
    obtain ⟨i, -, digit⟩ := List.mem_flatMap.mp member
    exact noNul_wordText _ _ c digit
  · intro c member
    obtain ⟨i, -, digit⟩ := List.mem_flatMap.mp member
    exact blank c digit

theorem length_registersText (env : Env) (p : ArmCore) : (registersText env p).length = 336 := by
  have blank : (text "xxxxxxxx").length = 8 := by decide
  simp [registersText, List.length_flatMap, length_wordText, blank]

section Replies

variable {allowed : Event → Prop} {stopped : Stop → Prop} {gdb : Session}
  {post : Unit → Session → Prop} (checked : ∀ i, allowed (.write i) ↔ i < MAX_PACKET_SIZE)

include checked

/-- A short reply always fits. -/
theorem meets_gdbSendData_short (reply : List (BitVec 8)) (short : IsShort reply)
    : Meets allowed stopped post (gdbSendData reply) gdb ↔ post () (gdb.replied reply) := by
  have size : MAX_PACKET_SIZE = 1024 := rfl
  obtain ⟨noNul, length⟩ := short
  rw [meets_gdbSendData checked reply noNul (by omega)]
  exact and_iff_right (by omega)

theorem meets_sendStopReason
    : Meets allowed stopped post sendStopReason gdb
      ↔ post () (gdb.replied (text (gdbSendStopReason gdb.toGdbProtocolData))) := by
  have short : IsShort (text (gdbSendStopReason gdb.toGdbProtocolData)) := by
    unfold gdbSendStopReason
    split
    · decide +kernel
    · split <;> decide +kernel
  rw [sendStopReason, meets_bind, meets_get]
  exact meets_gdbSendData_short checked _ short

theorem meets_query (request : List (BitVec 8)) (data : Nat)
    : Meets allowed stopped post (query request data) gdb
      ↔ allowed (.readString data)
        ∧ post () (gdb.replied (queryReply (stringAt request data))) := by
  rw [query, meets_bind, meets_readString, queryReply]
  refine and_congr_right fun _ => ?_
  split
  · exact meets_gdbSendData_short checked _ (by decide +kernel)
  · split
    · exact meets_gdbSendData_short checked _ (by decide +kernel)
    · split
      · exact meets_gdbSendData_short checked _ (by decide +kernel)
      · split <;> exact meets_gdbSendData_short checked _ (by decide +kernel)

/-- The reply is written field by field, each behind the text before it. -/
theorem meets_readGeneralRegisters (env : Env)
    : Meets allowed stopped post (readGeneralRegisters env) gdb
      ↔ post () (gdb.replied (registersText env gdb.arm)) := by
  have size : MAX_PACKET_SIZE = 1024 := rfl
  have blank : (text "xxxxxxxx").length = 8 := by decide
  let low := (List.range 15).flatMap fun i =>
    wordText env (armReadRegister gdb.arm (BitVec.ofNat 8 i))
  let pc := wordText env (armReadRegister gdb.arm 15 - 4)
  let floats := (List.range 24).flatMap fun _ => text "xxxxxxxx"
  have lowLength : low.length = 120 := by
    simp [low, List.length_flatMap, length_wordText]
  have pcLength : (low ++ pc).length = 128 := by
    rw [List.length_append, lowLength, length_wordText]
  have floatsLength : (low ++ pc ++ floats).length = 320 := by
    rw [List.length_append, pcLength]
    simp [floats, List.length_flatMap, blank]
  have fpsLength : (low ++ pc ++ floats ++ text "xxxxxxxx").length = 328 := by
    rw [List.length_append, floatsLength, blank]
  have start {next : Unit → Session → Prop} (value : Nat → BitVec 32)
      : Meets allowed stopped next
          (each (List.range 15) fun i => writeUint32 env (1 + 8 * i) (value i)) gdb
        ↔ next () (gdb.withText ((List.range 15).flatMap fun i => wordText env (value i))) := by
    have first : List.range 15 = 0 :: (List.range 14).map Nat.succ := List.range_succ_eq_map
    have loop : Meets allowed stopped next
          (each (List.range 15) fun i => writeUint32 env (1 + 8 * i) (value i))
          (gdb.withText [])
        ↔ next () (gdb.withText ([] ++ (List.range 15).flatMap fun i => wordText env (value i))) := by
      refine meets_each_chunks [] 8 _ (fun _ => rfl) _ 15 fun k below next sofar length => ?_
      rw [List.length_nil, Nat.zero_add] at length
      rw [← length]
      exact meets_writeUint32 checked env (value k) sofar (by omega)
    rw [List.nil_append] at loop
    rw [← loop, first, meets_each_cons, meets_each_cons]
    exact meets_writeUint32_start checked env (value 0)
  have fields {next : Unit → Session → Prop}
      : Meets allowed stopped next
          (each (List.range 24) fun j => writeText (1 + 8 * (16 + j)) (text "xxxxxxxx"))
          (gdb.withText (low ++ pc))
        ↔ next () (gdb.withText (low ++ pc ++ floats)) := by
    refine meets_each_chunks (low ++ pc) 8 _ (fun _ => blank) _ 24 fun k below next sofar length => ?_
    rw [pcLength] at length
    have place : 1 + 8 * (16 + k) = 1 + sofar.length := by omega
    rw [place, meets_writeText_append checked sofar _ (by omega), blank]
    exact and_iff_right (by omega)
  have pcPlace : 1 + 8 * 15 = 1 + low.length := by rw [lowLength]
  have fpsPlace : 1 + 8 * 40 = 1 + (low ++ pc ++ floats).length := by rw [floatsLength]
  have cpsrPlace : 1 + 8 * 41 = 1 + (low ++ pc ++ floats ++ text "xxxxxxxx").length := by
    rw [fpsLength]
  rw [readGeneralRegisters]
  simp only [meets_bind, meets_get]
  rw [start, pcPlace, meets_writeUint32 checked env _ low (by omega), fields, fpsPlace,
    meets_writeText_append checked _ _ (by omega), cpsrPlace,
    meets_writeUint32 checked env _ _ (by omega)]
  have whole : low ++ pc ++ floats ++ text "xxxxxxxx" ++ wordText env (armReadCpsr gdb.arm)
      = registersText env gdb.arm :=
    rfl
  rw [whole, meets_gdbSendBuffer checked _ (noNul_registersText env gdb.arm)
    (by rw [length_registersText]; omega), length_registersText, floatsLength, blank]
  exact ⟨fun met => met.2.2, fun met => ⟨by omega, by omega, met⟩⟩

theorem meets_readRegisterRequest (env : Env) (request : List (BitVec 8)) (data : Nat)
    : Meets allowed stopped post (readRegisterRequest env request data) gdb
      ↔ allowed (.readString data)
        ∧ (¬ IsInt (scanInt (stringAt request data)) → allowed .unparsed)
        ∧ if (atoiValue env (scanInt (stringAt request data))).toNat < 16 then
            post () (gdb.replied (registerText env gdb.arm
              (atoiValue env (scanInt (stringAt request data)))))
          else stopped .assertion := by
  simp only [readRegisterRequest, meets_bind, meets_readString, meets_useAtoi, assertRegister]
  refine and_congr_right fun _ => and_congr_right fun _ => ?_
  have room (value : BitVec 32) : (wordText env value).length + 1 < MAX_PACKET_SIZE := by
    rw [length_wordText]
    decide
  have fits (value : BitVec 32) : (wordText env value).length + 4 < MAX_PACKET_SIZE := by
    rw [length_wordText]
    decide
  by_cases low : (atoiValue env (scanInt (stringAt request data))).toNat < 16
  · rw [if_pos low, if_pos low, meets_pure, meets_get, meets_writeUint32_alone checked,
      meets_gdbSendBuffer checked _ (noNul_wordText _ _) (room _)]
    exact and_iff_right (fits _)
  · rw [if_neg low, if_neg low, meets_stop]

theorem meets_setThread (env : Env) (request : List (BitVec 8)) (data : Nat)
    : Meets allowed stopped post (setThread env request data) gdb
      ↔ allowed (.readByte data)
        ∧ allowed (.readString (data + 1))
        ∧ if request.getD data 0 = ascii 'c' ∨ request.getD data 0 = ascii 'g' then
            (¬ IsInt (scanInt (stringAt request (data + 1))) → allowed .unparsed)
            ∧ post () (gdb.replied (threadReply
              (atoiValue env (scanInt (stringAt request (data + 1))))))
          else post () (gdb.replied (text "E01")) := by
  simp only [setThread, meets_bind, meets_readByte, meets_readString]
  refine and_congr_right fun _ => and_congr_right fun _ => ?_
  split
  · rw [meets_bind, meets_useAtoi, threadReply]
    refine and_congr_right fun _ => ?_
    split
    · exact meets_gdbSendData_short checked _ (by decide +kernel)
    · exact meets_gdbSendData_short checked _ (by decide +kernel)
  · exact meets_gdbSendData_short checked _ (by decide +kernel)

/-- The processor after `G`. -/
def writtenRegisters (env : Env) (request : List (BitVec 8)) (data : Nat) (p : ArmCore)
    : ArmCore :=
  armWriteCpsr
    ((List.range 16).foldl
      (fun p i => armWriteRegister p (BitVec.ofNat 8 i) (uint32Value env request (data + 8 * i)))
      p)
    (uint32Value env request (data + 8 * 41))

theorem meets_writeGeneralRegisters (env : Env) (request : List (BitVec 8)) (data : Nat)
    : Meets allowed stopped post (writeGeneralRegisters env request data) gdb
      ↔ (∀ i < 42, ∀ k < 4, ReadsByte allowed request (data + 8 * i + 2 * k))
        ∧ post ()
            (Session.replied
              { gdb with arm := writtenRegisters env request data gdb.arm } (text "OK")) := by
  let field (i : Nat) := ∀ k < 4, ReadsByte allowed request (data + 8 * i + 2 * k)
  let state (n : Nat) : Session :=
    { gdb with
      arm := (List.range n).foldl
        (fun p i => armWriteRegister p (BitVec.ofNat 8 i) (uint32Value env request (data + 8 * i)))
        gdb.arm }
  have general {next : Unit → Session → Prop}
      : Meets allowed stopped next
          (each (List.range 16) fun i => do
            let value ← readUint32 env request (data + 8 * i)
            modify fun gdb => { gdb with arm := armWriteRegister gdb.arm (BitVec.ofNat 8 i) value })
          gdb
        ↔ (∀ i < 16, field i) ∧ next () (state 16) := by
    refine meets_each_range_iff state field _ 16 fun k below next => ?_
    rw [meets_bind, meets_readUint32]
    refine and_congr_right fun _ => ?_
    rw [meets_modify]
    simp only [state, List.range_succ, List.foldl_append, List.foldl_cons, List.foldl_nil]
  have ignored {next : Unit → Session → Prop}
      : Meets allowed stopped next
          (each (List.range 25) fun j => do
            let _ ← readUint32 env request (data + 8 * (16 + j)))
          (state 16)
        ↔ (∀ j < 25, field (16 + j)) ∧ next () (state 16) := by
    refine meets_each_range_iff (fun _ => state 16) (fun j => field (16 + j)) _ 25
      fun k below next => ?_
    rw [meets_bind, meets_readUint32]
    exact and_congr_right fun _ => meets_pure ()
  have all : (∀ i < 42, field i) ↔ (∀ i < 16, field i) ∧ (∀ j < 25, field (16 + j)) ∧ field 41 := by
    constructor
    · intro all
      exact ⟨fun i below => all i (by omega), fun j below => all (16 + j) (by omega),
        all 41 (by omega)⟩
    · rintro ⟨low, middle, last⟩ i below
      rcases Nat.lt_or_ge i 16 with first | rest
      · exact low i first
      · rcases Nat.lt_or_ge i 41 with inside | top
        · have field := middle (i - 16) (by omega)
          rwa [Nat.add_sub_cancel' rest] at field
        · obtain rfl : i = 41 := by omega
          exact last
  rw [writeGeneralRegisters]
  simp only [meets_bind]
  rw [general, ignored, meets_readUint32, meets_modify,
    meets_gdbSendData_short checked _ (by decide +kernel)]
  change _ ↔ (∀ i < 42, field i) ∧ _
  rw [all, and_assoc, and_assoc]
  exact Iff.rfl

theorem meets_writeRegisterRequest (env : Env) (request : List (BitVec 8)) (data : Nat)
    : Meets allowed stopped post (writeRegisterRequest env request data) gdb
      ↔ allowed (.readString data)
        ∧ match indexOf (stringAt request data) (ascii '=') with
          | none => stopped .nullPointer
          | some i =>
              let number := (scanHex (stringAt request data)).map Prod.fst
              let reg := scannedValue env env.unset.reg number
              (∀ k < 4, ReadsByte allowed request (data + i + 1 + 2 * k))
              ∧ (¬ IsUnsigned number → allowed .unparsed)
              ∧ if reg.toNat < 16 then
                  post ()
                    (Session.replied
                      { gdb with
                        arm := armWriteRegister gdb.arm (reg.setWidth 8)
                          (uint32Value env request (data + i + 1)) }
                      (text "OK"))
                else stopped .assertion := by
  rw [writeRegisterRequest, meets_bind, meets_readString]
  refine and_congr_right fun _ => ?_
  cases indexOf (stringAt request data) (ascii '=') with
  | none => exact meets_stop _
  | some i =>
      simp only [meets_bind, meets_readUint32, meets_useScanned, assertRegister]
      refine and_congr_right fun _ => and_congr_right fun _ => ?_
      by_cases low : (scannedValue env env.unset.reg
          ((scanHex (stringAt request data)).map Prod.fst)).toNat < 16
      · rw [if_pos low, if_pos low, meets_pure, meets_modify,
          meets_gdbSendData_short checked _ (by decide +kernel)]
      · rw [if_neg low, if_neg low, meets_stop]

end Replies

-----------------------------------------------------------------------------------------
-- Memory
-----------------------------------------------------------------------------------------

/-- The number of bytes that `read_memory` reads: it stops outside memory. -/
def readable (mem : Memory) : Nat → BitVec 32 → Nat
  | 0, _ => 0
  | n + 1, address => if address.toNat < mem.size then readable mem n (address + 1) + 1 else 0

/-- The bytes of `n` addresses. -/
def memoryBytes (mem : Memory) : Nat → BitVec 32 → List (BitVec 8)
  | 0, _ => []
  | n + 1, address => mem.data address.toNat :: memoryBytes mem n (address + 1)

/-- The bytes of a reply to `m`. -/
def hexText (bytes : List (BitVec 8)) : List (BitVec 8) :=
  bytes.flatMap printHex2

theorem length_memoryBytes (mem : Memory) (n : Nat) (address : BitVec 32)
    : (memoryBytes mem n address).length = n := by
  induction n generalizing address with
  | zero => rfl
  | succ n ih => rw [memoryBytes, List.length_cons, ih]

theorem length_hexText (bytes : List (BitVec 8)) : (hexText bytes).length = 2 * bytes.length := by
  simp [hexText, List.length_flatMap, length_printHex2, Nat.mul_comm]

theorem noNul_hexText (bytes : List (BitVec 8)) : NoNul (hexText bytes) := by
  intro c member
  obtain ⟨b, -, digit⟩ := List.mem_flatMap.mp member
  exact noNul_printHex2 b c digit

/-- The memory after the loop of `write_memory_binary`, and the last `write_ok`. -/
def storedBinary (request : List (BitVec 8)) : Nat → BitVec 32 → Nat → Memory → Bool × Memory
  | 0, _, _, mem => (true, mem)
  | size + 1, address, content, mem =>
      let escaped := request.getD content 0 = 0x7d
      let content := if escaped then content + 1 else content
      let value :=
        if escaped then request.getD content 0 ^^^ 0x20 else request.getD content 0
      if address.toNat < mem.size then
        storedBinary request size (address + 1) (content + 1)
          (memoryWriteByte mem address value).2
      else (false, mem)

/-- The events of the loop are allowed, for a memory of this size. -/
def ReadsContent (allowed : Event → Prop) (request : List (BitVec 8)) (memSize : Nat)
    : Nat → BitVec 32 → Nat → Prop
  | 0, _, _ => True
  | size + 1, address, content =>
      let next := if request.getD content 0 = 0x7d then content + 1 else content
      allowed (.readByte content)
      ∧ allowed (.readByte next)
      ∧ (address.toNat < memSize
          → ReadsContent allowed request memSize size (address + 1) (next + 1))

/-- Bytes are always aligned. -/
theorem accessible_one_iff (mem : Memory) (address : BitVec 32)
    : mem.Accessible 1 address ↔ address.toNat < mem.size :=
  and_iff_left (Nat.mod_one _)

section Memory

variable {allowed : Event → Prop} {stopped : Stop → Prop} {gdb : Session}

/-- The loop reads its content byte by byte, by induction on the size. -/
theorem meets_writeMemoryLoop {post : Bool → Session → Prop} (request : List (BitVec 8))
    (size : Nat) (address : BitVec 32) (content : Nat)
    : Meets allowed stopped post (writeMemoryLoop request size address content) gdb
      ↔ ReadsContent allowed request gdb.arm.mem.size size address content
        ∧ let stored := storedBinary request size address content gdb.arm.mem
          post stored.1 { gdb with arm := { gdb.arm with mem := stored.2 } } := by
  induction size generalizing address content gdb with
  | zero =>
      rw [writeMemoryLoop, meets_pure]
      exact (and_iff_right trivial).symm
  | succ size ih =>
      simp only [writeMemoryLoop, meets_bind, meets_readByte, meets_get, setArm, meets_modify,
        ReadsContent, storedBinary, and_assoc]
      refine and_congr_right fun _ => and_congr_right fun _ => ?_
      simp only [memoryWriteByte_eq, accessible_one_iff]
      by_cases inside : address.toNat < gdb.arm.mem.size
      · simp only [inside, if_true, forall_const]
        exact ih _ _
      · simp only [inside, if_false, false_implies, true_and]
        have failed : ¬ (-1 : Int) = 0 := by decide
        rw [if_neg failed, meets_pure]

variable {post : Unit → Session → Prop} (checked : ∀ i, allowed (.write i) ↔ i < MAX_PACKET_SIZE)

include checked

/-- The loop writes two digits for each byte it can read, by induction on the size. -/
theorem meets_readMemoryLoop (size : Nat) (address : BitVec 32) (before : List (BitVec 8))
    (fits : before.length + 1 < MAX_PACKET_SIZE)
    : Meets allowed stopped post (readMemoryLoop size address (1 + before.length))
        (gdb.withText before)
      ↔ before.length + 2 * readable gdb.arm.mem size address + 1 < MAX_PACKET_SIZE
        ∧ post ()
            (gdb.withText
              (before
                ++ hexText (memoryBytes gdb.arm.mem (readable gdb.arm.mem size address)
                  address))) := by
  induction size generalizing address before with
  | zero =>
      rw [readMemoryLoop, meets_pure, readable, memoryBytes, hexText, List.flatMap_nil,
        List.append_nil]
      exact (and_iff_right fits).symm
  | succ size ih =>
      have mem : (gdb.withText before).arm.mem = gdb.arm.mem := rfl
      simp only [readMemoryLoop, meets_bind, meets_get, mem, memoryReadByte_eq,
        accessible_one_iff, readable]
      by_cases inside : address.toNat < gdb.arm.mem.size
      · let digits := printHex2 (gdb.arm.mem.data address.toNat)
        have length : (before ++ digits).length = before.length + 2 := List.length_append
        have place : 1 + before.length + 2 = 1 + (before ++ digits).length := by
          rw [length, Nat.add_assoc]
        have read : (0 : Int) ≠ -1 := by decide
        simp only [inside, if_true, memoryBytes, hexText, List.flatMap_cons]
        rw [if_pos read, meets_bind, meets_writeText_append checked _ _ (by omega),
          length_printHex2, place, ← List.append_assoc]
        constructor
        · rintro ⟨room, met⟩
          rw [ih (address + 1) (before ++ digits) (by omega), length] at met
          exact ⟨by omega, met.2⟩
        · rintro ⟨room, met⟩
          rw [ih (address + 1) (before ++ digits) (by omega), length]
          exact ⟨by omega, by omega, met⟩
      · have failed : ¬ (-1 : Int) ≠ -1 := by decide
        simp only [inside, if_false, memoryBytes, hexText, List.flatMap_nil, List.append_nil,
          Nat.mul_zero, Nat.add_zero]
        rw [if_neg failed, meets_pure]
        exact (and_iff_right fits).symm

/-- The bytes of a reply to `m`. -/
def memoryReply (mem : Memory) (size address : BitVec 32) : List (BitVec 8) :=
  hexText (memoryBytes mem (readable mem size.toNat address) address)

theorem meets_readMemory (env : Env) (request : List (BitVec 8)) (data : Nat)
    : Meets allowed stopped post (readMemory env request data) gdb
      ↔ let numbers := scanHexPair (stringAt request data)
        let size := scannedValue env env.unset.size numbers.2
        let address := scannedValue env env.unset.address numbers.1
        allowed (.readString data)
        ∧ (¬ IsUnsigned numbers.2 → allowed .unparsed)
        ∧ (size ≠ 0 → ¬ IsUnsigned numbers.1 → allowed .unparsed)
        ∧ 2 * readable gdb.arm.mem size.toNat address + 4 < MAX_PACKET_SIZE
        ∧ post () (gdb.replied (memoryReply gdb.arm.mem size address)) := by
  have start : ({ gdb with packet := putBytes gdb.packet 1 [0] } : Session) = gdb.withText [] :=
    rfl
  have room : 1 < MAX_PACKET_SIZE := by decide
  have base : 1 = 1 + ([] : List (BitVec 8)).length := rfl
  have length (size address : BitVec 32) : (memoryReply gdb.arm.mem size address).length
      = 2 * readable gdb.arm.mem size.toNat address := by
    rw [memoryReply, length_hexText, length_memoryBytes]
  have sends (size address : BitVec 32)
      (fits : 2 * readable gdb.arm.mem size.toNat address + 1 < MAX_PACKET_SIZE)
      : Meets allowed stopped post gdbSendBuffer
          (gdb.withText (memoryReply gdb.arm.mem size address))
        ↔ 2 * readable gdb.arm.mem size.toNat address + 4 < MAX_PACKET_SIZE
          ∧ post () (gdb.replied (memoryReply gdb.arm.mem size address)) := by
    rw [← length] at fits ⊢
    exact meets_gdbSendBuffer checked _ (noNul_hexText _) fits
  rw [readMemory, meets_bind, meets_readString]
  simp only [meets_bind, meets_writePacket checked, meets_useScanned, start]
  refine and_congr_right fun _ => (and_iff_right room).trans (and_congr_right fun _ => ?_)
  generalize scannedValue env env.unset.size (scanHexPair (stringAt request data)).2 = size
  generalize addressed
    : scannedValue env env.unset.address (scanHexPair (stringAt request data)).1 = address
  by_cases none : size = 0
  · subst none
    have sent := sends 0 address (by decide : 2 * 0 + 1 < MAX_PACKET_SIZE)
    rw [if_pos rfl]
    exact sent.trans (and_iff_right fun nonzero => absurd rfl nonzero).symm
  · have loop {next : Unit → Session → Prop}
        : Meets allowed stopped next (readMemoryLoop size.toNat address 1) (gdb.withText [])
          ↔ 2 * readable gdb.arm.mem size.toNat address + 1 < MAX_PACKET_SIZE
            ∧ next () (gdb.withText (memoryReply gdb.arm.mem size address)) := by
      have whole : Meets allowed stopped next
          (readMemoryLoop size.toNat address (1 + ([] : List (BitVec 8)).length))
          (gdb.withText []) ↔ _ :=
        meets_readMemoryLoop checked size.toNat address [] room
      rwa [List.length_nil, List.nil_append, Nat.zero_add] at whole
    rw [if_neg none, meets_bind, meets_useScanned, addressed, meets_bind, loop]
    constructor
    · rintro ⟨parsed, fits, met⟩
      exact ⟨fun _ => parsed, (sends size address fits).mp met⟩
    · rintro ⟨parsed, fits, met⟩
      exact ⟨parsed none, by omega, (sends size address (by omega)).mpr ⟨fits, met⟩⟩

theorem meets_writeMemoryBinary (env : Env) (request : List (BitVec 8)) (data : Nat)
    : Meets allowed stopped post (writeMemoryBinary env request data) gdb
      ↔ let numbers := scanHexPair (stringAt request data)
        let size := scannedValue env env.unset.size numbers.2
        let address := scannedValue env env.unset.address numbers.1
        allowed (.readString data)
        ∧ (¬ IsUnsigned numbers.1 → allowed .unparsed)
        ∧ (¬ IsUnsigned numbers.2 → allowed .unparsed)
        ∧ if gdb.arm.mem.size ≤ address.toNat then post () (gdb.replied (text "E02"))
          else if size = 0 then post () (gdb.replied (text "OK"))
          else
            match indexOf (stringAt request data) (ascii ':') with
            | none => stopped .nullPointer
            | some i =>
                let stored :=
                  storedBinary request size.toNat address (data + i + 1) gdb.arm.mem
                ReadsContent allowed request gdb.arm.mem.size size.toNat address (data + i + 1)
                ∧ post ()
                    (Session.replied
                      { gdb with arm := { gdb.arm with mem := stored.2 } }
                      (if stored.1 then text "OK" else text "E02")) := by
  have sends {gdb : Session} (ok : Bool)
      : Meets allowed stopped post
          (if ok then gdbSendData (text "OK") else gdbSendData (text "E02")) gdb
        ↔ post () (gdb.replied (if ok then text "OK" else text "E02")) := by
    cases ok with
    | true => exact meets_gdbSendData_short checked _ (by decide +kernel)
    | false => exact meets_gdbSendData_short checked _ (by decide +kernel)
  rw [writeMemoryBinary, meets_bind, meets_readString]
  simp only [meets_bind, meets_useScanned, meets_get, memoryGetSize]
  refine and_congr_right fun _ => and_congr_right fun _ => and_congr_right fun _ => ?_
  split
  · rw [meets_bind, meets_pure, sends]
    rfl
  · split
    · rw [meets_bind, meets_pure, sends]
      rfl
    · cases indexOf (stringAt request data) (ascii ':') with
      | none =>
          simp only [Option.map_none]
          rw [meets_bind, meets_stop]
      | some i =>
          simp only [Option.map_some]
          rw [meets_bind, meets_writeMemoryLoop]
          refine and_congr_right fun _ => ?_
          exact sends _

end Memory

end Armator.Gdb
