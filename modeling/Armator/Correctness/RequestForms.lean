import Armator.Correctness.BinaryWrites

/-! Which arguments a request may have, and what its handler may do with others. -/

namespace Armator.Gdb

open CText Traced ByteStuffing

/-- The arguments of `m` name bytes inside memory. -/
def ReadArguments (mem : Memory) (size : BitVec 32) (args : List (BitVec 8)) : Prop :=
  ∃ address addressText sizeText,
    args = addressText ++ ascii ',' :: sizeText
    ∧ IsWord addressText address
    ∧ IsWord sizeText size
    ∧ address.toNat + size.toNat ≤ mem.size

/-- The number of a register that the server has. -/
def IsRegister (s : List (BitVec 8)) : Prop :=
  IsHex s ∧ hexValue s < 16

instance (s : List (BitVec 8)) : Decidable (IsRegister s) :=
  inferInstanceAs (Decidable (_ ∧ _))

/-- The digits of `n` words. -/
def AreWords (n : Nat) (s : List (BitVec 8)) : Prop :=
  s.length = 8 * n ∧ ∀ c ∈ s, (hexDigit c).isSome

def WriteRegisterArguments (args : List (BitVec 8)) : Prop :=
  ∃ number word, args = number ++ ascii '=' :: word ∧ IsRegister number ∧ AreWords 1 word

/-- The arguments of `H` name an operation, and any thread or all threads. -/
def ThreadArguments (args : List (BitVec 8)) : Prop :=
  ∃ type id,
    args = type :: id
    ∧ (type = ascii 'c' ∨ type = ascii 'g')
    ∧ (IsHex id ∧ hexValue id = 0 ∨ id = text "-1")

/-- The arguments of `X` name bytes inside memory and have content for each of them. -/
def WriteArguments (mem : Memory) (args : List (BitVec 8)) : Prop :=
  ∃ address size addressText sizeText encoding data,
    args = addressText ++ ascii ',' :: (sizeText ++ ascii ':' :: encoding)
    ∧ IsWord addressText address
    ∧ IsWord sizeText size
    ∧ decode 0x7d 0x20 size.toNat encoding = some (data, [])
    ∧ address.toNat + size.toNat ≤ mem.size

/-- The arguments have the form that the command asks for, and are in range. The names of queries
are free.
-/
def Acceptable (mem : Memory) (command : BitVec 8) (args : List (BitVec 8)) : Prop :=
  if command = ascii 'g' ∨ command = ascii '?' then args = []
  else if command = ascii 'm' then ∃ size, ReadArguments mem size args
  else if command = ascii 'p' then IsRegister args
  else if command = ascii 'P' then WriteRegisterArguments args
  else if command = ascii 'G' then AreWords 42 args
  else if command = ascii 'H' then ThreadArguments args
  else if command = ascii 'X' then WriteArguments mem args
  else True

section Formats

variable (mem : Memory) (args : List (BitVec 8))

theorem acceptable_readMemory
    : Acceptable mem (ascii 'm') args ↔ ∃ size, ReadArguments mem size args := by
  rw [Acceptable, if_neg (by decide), if_pos rfl]

theorem acceptable_readRegister : Acceptable mem (ascii 'p') args ↔ IsRegister args := by
  rw [Acceptable, if_neg (by decide), if_neg (by decide), if_pos rfl]

theorem acceptable_writeRegister
    : Acceptable mem (ascii 'P') args ↔ WriteRegisterArguments args := by
  rw [Acceptable, if_neg (by decide), if_neg (by decide), if_neg (by decide), if_pos rfl]

theorem acceptable_writeGeneralRegisters
    : Acceptable mem (ascii 'G') args ↔ AreWords 42 args := by
  rw [Acceptable, if_neg (by decide), if_neg (by decide), if_neg (by decide), if_neg (by decide),
    if_pos rfl]

theorem acceptable_setThread : Acceptable mem (ascii 'H') args ↔ ThreadArguments args := by
  rw [Acceptable, if_neg (by decide), if_neg (by decide), if_neg (by decide), if_neg (by decide),
    if_neg (by decide), if_pos rfl]

theorem acceptable_writeMemory : Acceptable mem (ascii 'X') args ↔ WriteArguments mem args := by
  rw [Acceptable, if_neg (by decide), if_neg (by decide), if_neg (by decide), if_neg (by decide),
    if_neg (by decide), if_neg (by decide), if_pos rfl]

end Formats

/-- Writes stay inside the packet, reading ends at the terminator of the request, and only numbers
that the request has are used.
-/
def Permitted (payload : List (BitVec 8)) : Event → Prop
  | .write index => index < MAX_PACKET_SIZE
  | .readString position => position ≤ terminator payload
  | .readByte position => position < terminator payload
  | .unparsed => False
  | .shutdown => True

/-- `E` and two digits. -/
def IsErrorReply (reply : List (BitVec 8)) : Prop :=
  ∃ code, reply = ascii 'E' :: printHex2 code

/-- The packet was answered, with an error and without a change if its arguments are not
acceptable.
-/
def Answered (gdb : Session) (command : BitVec 8) (args : List (BitVec 8)) (t : Session) : Prop :=
  ∃ reply,
    t.sent = gdb.sent ++ text "+" ++ frame reply
    ∧ (¬ Acceptable gdb.arm.mem command args
      → IsErrorReply reply ∧ t.arm.reg = gdb.arm.reg ∧ t.arm.mem = gdb.arm.mem)

/-- The packet `$`, command, arguments, `#`, digits is handled as permitted and answered. -/
def Withstands (env : Env) (gdb : Session) (command : BitVec 8) (args digits behind : List (BitVec 8))
    : Prop :=
  Meets (Permitted (command :: args)) (fun _ => False) (fun _ t => Answered gdb command args t)
    (gdbPacketAnalysis env (requestBuffer (command :: args) digits behind)
      ((command :: args).length + 4))
    gdb

theorem IsErrorReply.length {reply : List (BitVec 8)} (error : IsErrorReply reply)
    : reply.length = 3 := by
  obtain ⟨code, rfl⟩ := error
  rfl

theorem IsErrorReply.head {reply : List (BitVec 8)} (error : IsErrorReply reply)
    : reply.head? = some (ascii 'E') := by
  obtain ⟨code, rfl⟩ := error
  rfl

/-- A reply of another length is no error. -/
theorem not_isErrorReply {reply : List (BitVec 8)} (length : reply.length ≠ 3)
    : ¬ IsErrorReply reply :=
  fun error => length error.length

theorem permitted_write (payload : List (BitVec 8)) (i : Nat)
    : Permitted payload (.write i) ↔ i < MAX_PACKET_SIZE :=
  Iff.rfl

theorem frame_injective {first second : List (BitVec 8)} (same : frame first = frame second)
    : first = second := by
  have length : first.length = second.length := by
    have lengths := congrArg List.length same
    rw [length_frame, length_frame] at lengths
    exact Nat.add_right_cancel lengths
  have heads := (List.append_inj same (by simp [length])).1
  exact (List.cons.inj heads).2

section Answers

variable {gdb s : Session} {command : BitVec 8} {args : List (BitVec 8)}
  (sent : s.sent = gdb.acknowledged.sent)

include sent

/-- A frame behind the acknowledgement is that of the reply. -/
theorem sent_replied_iff (reply other : List (BitVec 8))
    : (s.replied reply).sent = gdb.sent ++ text "+" ++ frame other ↔ reply = other := by
  have whole : (s.replied reply).sent = gdb.sent ++ text "+" ++ frame reply := by
    change s.sent ++ frame reply = _
    rw [sent]
    rfl
  rw [whole, List.append_cancel_left_eq]
  exact ⟨frame_injective, congrArg frame⟩

/-- Only this reply was sent. -/
theorem exists_reply_iff (reply : List (BitVec 8)) (property : List (BitVec 8) → Prop)
    : (∃ other,
        (s.replied reply).sent = gdb.sent ++ text "+" ++ frame other ∧ property other)
      ↔ property reply := by
  constructor
  · rintro ⟨other, same, holds⟩
    rwa [(sent_replied_iff sent reply other).mp same]
  · intro holds
    exact ⟨reply, (sent_replied_iff sent reply reply).mpr rfl, holds⟩

theorem answered_iff (reply : List (BitVec 8))
    : Answered gdb command args (s.replied reply)
      ↔ (¬ Acceptable gdb.arm.mem command args
        → IsErrorReply reply ∧ s.arm.reg = gdb.arm.reg ∧ s.arm.mem = gdb.arm.mem) :=
  exists_reply_iff sent reply _

theorem answered_of_acceptable (reply : List (BitVec 8))
    (acceptable : Acceptable gdb.arm.mem command args)
    : Answered gdb command args (s.replied reply) :=
  (answered_iff sent reply).mpr fun malformed => absurd acceptable malformed

/-- Any other reply is for acceptable arguments only. -/
theorem answered_iff_acceptable {reply : List (BitVec 8)} (noError : ¬ IsErrorReply reply)
    : Answered gdb command args (s.replied reply) ↔ Acceptable gdb.arm.mem command args := by
  rw [answered_iff sent]
  constructor
  · intro refused
    by_contra malformed
    exact noError (refused malformed).1
  · intro acceptable malformed
    exact absurd acceptable malformed

end Answers

/-- What the handler of `P` finds in the text of a number, `=` and a word. -/
theorem parsed_writeRegister {number word : List (BitVec 8)} (hex : IsHex number)
    (noNul : NoNul word)
    : arguments (ascii 'P' :: (number ++ ascii '=' :: word)) = number ++ ascii '=' :: word
      ∧ indexOf (number ++ ascii '=' :: word) (ascii '=') = some number.length
      ∧ scanHex (number ++ ascii '=' :: word)
        = some ((hexValue number : Int), ascii '=' :: word) := by
  have whole : NoNul (number ++ ascii '=' :: word) := by
    refine (noNul_of_isHex hex).append fun c member => ?_
    rcases List.mem_cons.mp member with rfl | inWord
    · decide
    · exact noNul c inWord
  have plain : ∀ c ∈ number, c ≠ ascii '=' := by
    rintro c member rfl
    exact absurd (hex.2 _ member) (by decide)
  refine ⟨arguments_of_noNul _ whole, indexOf_append plain word, ?_⟩
  refine scanHex_append number _ hex fun c head => ?_
  obtain rfl : ascii '=' = c := Option.some.inj head
  decide

/-- What `atoi` makes of the number of a register. -/
theorem scanInt_of_isRegister {s : List (BitVec 8)} (register : IsRegister s)
    : scanInt s = none ∨ ∃ n : Nat, n < 16 ∧ scanInt s = some (n : Int) := by
  obtain ⟨hex, low⟩ := register
  cases s with
  | nil => exact absurd rfl hex.1
  | cons c rest =>
      rw [scanInt_of_isHex hex]
      split
      · have small := readDigits_decimal_le (c :: rest) (Nat.le_refl 0)
        exact .inr ⟨_, Nat.lt_of_le_of_lt small low, rfl⟩
      · exact .inl rfl

theorem atoiValue_lt {n : Nat} (env : Env) (low : n < 16)
    : (atoiValue env (some (n : Int))).toNat < 16 := by
  have range : -2 ^ 31 ≤ (n : Int) ∧ (n : Int) < 2 ^ 31 := by omega
  rw [atoiValue, if_pos range, BitVec.toNat_ofInt]
  omega

/-- What a packet does is up to the handler of its command. -/
theorem withstands_iff_handle {env : Env} {command : BitVec 8}
    {handle : List (BitVec 8) → Nat → Act Unit} (found : handler env command = some handle)
    {digits : List (BitVec 8)} (gdb : Session) (args behind : List (BitVec 8))
    (valid : ChecksumDigits (command :: args) digits)
    : Withstands env gdb command args digits behind
      ↔ Meets (Permitted (command :: args)) (fun _ => False)
          (fun _ t => Answered gdb command args t)
          (handle (heldRequest (command :: args) digits behind) 2) gdb.acknowledged := by
  rw [Withstands, meets_gdbPacketAnalysis env behind valid, dispatch_heldRequest found]

/-- Two hexadecimal digits of the payload are read as a number. -/
theorem scanHex2_heldRequest {payload : List (BitVec 8)} (digits behind : List (BitVec 8)) {k : Nat}
    (two : k + 2 ≤ payload.length) (hex : ∀ c ∈ (payload.drop k).take 2, (hexDigit c).isSome)
    : scanHex2 (stringAt (heldRequest payload digits behind) (k + 1))
      = some (hexValue ((payload.drop k).take 2) : Int) := by
  have inside : k ≤ payload.length := by omega
  have length : (payload.drop k).length = payload.length - k := List.length_drop
  rw [stringAt_heldRequest payload digits behind inside]
  match rest : payload.drop k with
  | [] =>
      rw [rest, List.length_nil] at length
      omega
  | [c] =>
      rw [rest, List.length_singleton] at length
      omega
  | c :: d :: rest' =>
      rw [rest] at hex
      have first := hex c (by simp)
      have second := hex d (by simp)
      have kept {e : BitVec 8} (digit : (hexDigit e).isSome) : decide (e ≠ 0) = true :=
        decide_eq_true (hexDigit_plain e digit).2.2.2.2.2
      rw [List.takeWhile_cons, if_pos (kept first), List.takeWhile_cons, if_pos (kept second),
        scanHex2_of_digits first second]
      rfl

/-- The value of at most two digits is one of a byte. -/
theorem hexValue_take_lt (s : List (BitVec 8)) : hexValue (s.take 2) < 256 := by
  have short : (s.take 2).length ≤ 2 := List.length_take_le 2 s
  calc hexValue (s.take 2)
      < (0 + 1) * 16 ^ (s.take 2).length := readDigits_lt 0 (s.take 2)
    _ ≤ 1 * 16 ^ 2 := Nat.mul_le_mul_left 1 (Nat.pow_le_pow_right (by decide) short)

/-- Two hexadecimal digits are read as a byte. -/
theorem readsByte_of_hexDigits {payload : List (BitVec 8)} (digits behind : List (BitVec 8))
    {k : Nat} (two : k + 2 ≤ payload.length) (hex : ∀ c ∈ payload.drop k, (hexDigit c).isSome)
    : ReadsByte (Permitted payload) (heldRequest payload digits behind) (k + 1) := by
  have inside : k ≤ payload.length := by omega
  have bound := hexValue_take_lt (payload.drop k)
  refine ⟨Nat.succ_le_succ inside, fun unparsed => ?_⟩
  refine absurd ?_ unparsed
  rw [scanHex2_heldRequest digits behind two fun c member => hex c (List.mem_of_mem_take member)]
  exact ⟨_, rfl, by omega, by omega⟩

/-- The next byte of a content is there iff its last place is before the end. -/
theorem next_drop (payload : List (BitVec 8)) {k : Nat} (inside : k < payload.length)
    : let place := if payload.getD k 0 = 0x7d then k + 1 else k
      (place < payload.length
        → ∃ c, next 0x7d 0x20 (payload.drop k) = some (c, payload.drop (place + 1)))
      ∧ (¬ place < payload.length → next 0x7d 0x20 (payload.drop k) = none) := by
  have split : payload.drop k = payload.getD k 0 :: payload.drop (k + 1) := by
    rw [List.drop_eq_getElem_cons inside, List.getD_eq_getElem _ _ inside]
  by_cases escaped : payload.getD k 0 = 0x7d
  · simp only [escaped, if_true]
    rw [split, escaped]
    constructor
    · intro more
      rw [List.drop_eq_getElem_cons more, next_escape]
      exact ⟨_, rfl⟩
    · intro ended
      rw [List.drop_eq_nil_of_le (Nat.le_of_not_lt ended)]
      rfl
  · simp only [escaped, if_false]
    rw [split, next_plain escaped]
    exact ⟨fun _ => ⟨_, rfl⟩, fun ended => absurd inside ended⟩

/-- The loop of `write_memory_binary` may read its content iff there is a byte for each address up
to the end of memory, by induction on the size.
-/
theorem readsContent_iff (payload digits behind : List (BitVec 8)) (mem : Memory) (n : Nat)
    (address : BitVec 32) {k : Nat} (inside : k ≤ payload.length)
    : ReadsContent (Permitted payload) (heldRequest payload digits behind) mem.size n address (k + 1)
      ↔ (decode 0x7d 0x20 (min (readable mem n address + 1) n) (payload.drop k)).isSome := by
  induction n generalizing address k with
  | zero => exact iff_of_true trivial rfl
  | succ n ih =>
      rw [Nat.add_min_add_right]
      rcases Nat.lt_or_ge k payload.length with more | ended
      · obtain ⟨found, missing⟩ := next_drop payload more
        have read := getD_heldRequest payload digits behind k more
        have place : (if payload.getD k 0 = 0x7d then k + 1 + 1 else k + 1)
            = (if payload.getD k 0 = 0x7d then k + 1 else k) + 1 := by
          split <;> rfl
        simp only [ReadsContent, read, place]
        generalize (if payload.getD k 0 = 0x7d then k + 1 else k) = last at found missing ⊢
        have first : Permitted payload (.readByte (k + 1)) := Nat.succ_lt_succ more
        refine (and_iff_right first).trans ?_
        by_cases fits : last < payload.length
        · obtain ⟨c, next⟩ := found fits
          have second : Permitted payload (.readByte (last + 1)) := Nat.succ_lt_succ fits
          rw [decode_succ next, Option.isSome_map]
          refine (and_iff_right second).trans ?_
          by_cases accessible : address.toNat < mem.size
          · rw [readable, if_pos accessible, ← ih (address + 1) fits]
            exact forall_prop_of_true accessible
          · rw [readable, if_neg accessible, Nat.zero_min, decode]
            exact iff_of_true (fun inMemory => absurd inMemory accessible) rfl
        · have notSecond : ¬ Permitted payload (.readByte (last + 1)) := fun below =>
            fits (Nat.lt_of_succ_lt_succ below)
          rw [decode, missing fits]
          exact iff_of_false (fun both => notSecond both.1) (by simp)
      · have notFirst : ¬ Permitted payload (.readByte (k + 1)) := fun below =>
          absurd (Nat.lt_of_succ_lt_succ below) (Nat.not_lt.mpr ended)
        rw [List.drop_eq_nil_of_le ended]
        exact iff_of_false (fun all => notFirst all.1) (by simp [decode, next])

/-- The first of `n` addresses that is outside memory, by induction on `n`. -/
theorem readable_eq_iff (mem : Memory) (n : Nat) (address : BitVec 32) {k : Nat} (below : k < n)
    : readable mem n address = k
      ↔ (∀ i < k, (address + BitVec.ofNat 32 i).toNat < mem.size)
        ∧ mem.size ≤ (address + BitVec.ofNat 32 k).toNat := by
  induction n generalizing address k with
  | zero => exact absurd below (Nat.not_lt_zero k)
  | succ n ih =>
      have first := add_ofNat_zero address
      by_cases inside : address.toNat < mem.size
      · rw [readable, if_pos inside]
        cases k with
        | zero =>
            refine iff_of_false (Nat.succ_ne_zero _) fun outside => ?_
            rw [first] at outside
            exact absurd inside (Nat.not_lt.mpr outside.2)
        | succ k =>
            rw [Nat.succ_inj, ih (address + 1) (Nat.lt_of_succ_lt_succ below), add_one_add_ofNat]
            refine and_congr_left fun _ => ⟨fun all i small => ?_, fun all i small => ?_⟩
            · cases i with
              | zero => rwa [first]
              | succ i =>
                  rw [← add_one_add_ofNat]
                  exact all i (Nat.lt_of_succ_lt_succ small)
            · rw [add_one_add_ofNat]
              exact all (i + 1) (Nat.succ_lt_succ small)
      · rw [readable, if_neg inside]
        cases k with
        | zero =>
            rw [first]
            exact iff_of_true rfl
              ⟨fun i none => absurd none (Nat.not_lt_zero i), Nat.le_of_not_lt inside⟩
        | succ k =>
            refine iff_of_false (Nat.succ_ne_zero k).symm fun all => ?_
            have start := all.1 0 (Nat.succ_pos k)
            rw [first] at start
            exact inside start

theorem readable_le (mem : Memory) (n : Nat) (address : BitVec 32) : readable mem n address ≤ n :=
  (readable_le_iff mem n address n).mpr (.inl (Nat.le_refl n))

/-- Writing what is there already changes nothing, by induction on the bytes. -/
theorem withBytes_self (mem : Memory) (address : BitVec 32) (bytes : List (BitVec 8))
    (there : memoryBytes mem bytes.length address = bytes)
    : withBytes mem address bytes = mem := by
  induction bytes generalizing address with
  | nil => rfl
  | cons c rest ih =>
      obtain ⟨first, later⟩ := List.cons.inj there
      have same : mem.setByte address c = mem := by
        have data : (fun j => if j = address.toNat then c else mem.data j) = mem.data := by
          funext j
          split
          · next here => rw [here, first]
          · rfl
        rw [Memory.setByte, data]
      rw [withBytes, same, ih (address + 1) later]

end Armator.Gdb
