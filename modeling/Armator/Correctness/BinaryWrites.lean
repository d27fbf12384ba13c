import Armator.Correctness.PacketBounds
import Armator.Lib.ByteStuffing

/-! Bytes that are written with `X` are read back with `m`. -/

namespace Armator.Gdb

open CText Traced ByteStuffing

/-- The bytes that are escaped in every request. -/
def IsSpecial (c : BitVec 8) : Prop :=
  c = ascii '$' ∨ c = ascii '#' ∨ c = 0x7d

instance : DecidablePred IsSpecial := fun _ =>
  inferInstanceAs (Decidable (_ ∨ _))

/-- A hexadecimal text of a number of 32 bits. -/
def IsWord (s : List (BitVec 8)) (value : BitVec 32) : Prop :=
  IsHex s ∧ hexValue s = value.toNat

instance (s : List (BitVec 8)) (value : BitVec 32) : Decidable (IsWord s value) :=
  inferInstanceAs (Decidable (_ ∧ _))

def writeRequest (address size encoding : List (BitVec 8)) : List (BitVec 8) :=
  ascii 'X' :: (address ++ ascii ',' :: (size ++ ascii ':' :: encoding))

def readRequest (address size : List (BitVec 8)) : List (BitVec 8) :=
  ascii 'm' :: (address ++ ascii ',' :: size)

/-- A packet with the payload and any valid checksum is acknowledged and gets the reply, which
leaves the session `t`.
-/
def Answers (env : Env) (gdb : Session) (payload reply : List (BitVec 8)) (t : Session) : Prop :=
  t.sent = gdb.sent ++ text "+" ++ frame reply
  ∧ ∀ digits behind,
      ChecksumDigits payload digits
      → (gdbPacketAnalysis env (requestBuffer payload digits behind) (payload.length + 4) gdb).result
        = .ok ((), t)

/-- The memory with bytes written to it from an address on. -/
def withBytes (mem : Memory) : BitVec 32 → List (BitVec 8) → Memory
  | _, [] => mem
  | address, c :: rest => withBytes (mem.setByte address c) (address + 1) rest

/-- The address behind the next one. -/
theorem add_one_add_ofNat (address : BitVec 32) (i : Nat)
    : address + 1 + BitVec.ofNat 32 i = address + BitVec.ofNat 32 (i + 1) := by
  rw [BitVec.add_assoc, Nat.add_comm i 1, BitVec.ofNat_add]
  rfl

theorem add_ofNat_zero (address : BitVec 32) : address + BitVec.ofNat 32 0 = address :=
  BitVec.add_zero address

theorem size_withBytes (mem : Memory) (address : BitVec 32) (bytes : List (BitVec 8))
    : (withBytes mem address bytes).size = mem.size := by
  induction bytes generalizing mem address with
  | nil => rfl
  | cons c rest ih => exact ih (mem.setByte address c) (address + 1)

/-- All other bytes keep their values, by induction on the written ones. -/
theorem withBytes_outside (mem : Memory) (address : BitVec 32) (bytes : List (BitVec 8)) {j : Nat}
    (outside : ∀ i < bytes.length, j ≠ (address + BitVec.ofNat 32 i).toNat)
    : (withBytes mem address bytes).data j = mem.data j := by
  induction bytes generalizing mem address with
  | nil => rfl
  | cons c rest ih =>
      have notFirst : j ≠ address.toNat := by
        have first := outside 0 (Nat.succ_pos _)
        rwa [add_ofNat_zero] at first
      have later : ∀ i < rest.length, j ≠ (address + 1 + BitVec.ofNat 32 i).toNat := by
        intro i below
        rw [add_one_add_ofNat]
        exact outside (i + 1) (Nat.succ_lt_succ below)
      rw [withBytes, ih _ _ later]
      exact if_neg notFirst

/-- The written bytes are there, if they do not come round to their start. By induction on them. -/
theorem withBytes_inside (mem : Memory) (address : BitVec 32) (bytes : List (BitVec 8))
    (short : bytes.length ≤ 2 ^ 32) {i : Nat} (inside : i < bytes.length)
    : (withBytes mem address bytes).data (address + BitVec.ofNat 32 i).toNat = bytes[i] := by
  induction bytes generalizing mem address i with
  | nil => exact absurd inside (Nat.not_lt_zero i)
  | cons c rest ih =>
      rw [List.length_cons] at short
      cases i with
      | zero =>
          have later
              : ∀ i < rest.length, address.toNat ≠ (address + 1 + BitVec.ofNat 32 i).toNat := by
            intro i below same
            rw [add_one_add_ofNat, BitVec.toNat_add, BitVec.toNat_ofNat] at same
            have bound := address.isLt
            omega
          rw [add_ofNat_zero, withBytes, withBytes_outside _ _ _ later]
          exact if_pos rfl
      | succ i =>
          rw [← add_one_add_ofNat]
          exact ih (mem.setByte address c) (address + 1) (Nat.le_of_succ_le short)
            (Nat.lt_of_succ_lt_succ inside)

theorem memoryBytes_eq_map (mem : Memory) (n : Nat) (address : BitVec 32)
    : memoryBytes mem n address
      = (List.range n).map fun i => mem.data (address + BitVec.ofNat 32 i).toNat := by
  induction n generalizing address with
  | zero => rfl
  | succ n ih =>
      rw [memoryBytes, ih, List.range_succ_eq_map, List.map_cons, List.map_map, add_ofNat_zero]
      simp only [add_one_add_ofNat]
      rfl

theorem memoryBytes_withBytes (mem : Memory) (address : BitVec 32) (bytes : List (BitVec 8))
    (short : bytes.length ≤ 2 ^ 32)
    : memoryBytes (withBytes mem address bytes) bytes.length address = bytes := by
  rw [memoryBytes_eq_map]
  refine List.ext_getElem (by simp) fun i _ inside => ?_
  rw [List.getElem_map, List.getElem_range, withBytes_inside mem address bytes short inside]

/-- What can be read depends on the size of the memory only, by induction on the number of bytes. -/
theorem readable_congr {mem other : Memory} (same : mem.size = other.size) (n : Nat)
    (address : BitVec 32)
    : readable mem n address = readable other n address := by
  induction n generalizing address with
  | zero => rfl
  | succ n ih => rw [readable, readable, same, ih]

/-- Bytes inside memory are all readable, by induction on their number. -/
theorem readable_eq_of_inside (mem : Memory) (n : Nat) (address : BitVec 32)
    (inside : ∀ i < n, (address + BitVec.ofNat 32 i).toNat < mem.size)
    : readable mem n address = n := by
  induction n generalizing address with
  | zero => rfl
  | succ n ih =>
      have first := inside 0 (Nat.succ_pos n)
      rw [add_ofNat_zero] at first
      rw [readable, if_pos first, ih (address + 1) fun i below => ?_]
      rw [add_one_add_ofNat]
      exact inside (i + 1) (Nat.succ_lt_succ below)

theorem inside_of_add_le {mem : Memory} {address : BitVec 32} {n : Nat}
    (fits : address.toNat + n ≤ mem.size)
    : ∀ i < n, (address + BitVec.ofNat 32 i).toNat < mem.size := by
  intro i below
  rw [BitVec.toNat_add, BitVec.toNat_ofNat]
  omega

/-- One turn of the loop of `write_memory_binary` takes the next byte off the content. -/
theorem getD_next {request s tail between : List (BitVec 8)} {content : Nat} {c : BitVec 8}
    (held : request.drop content = s ++ tail) (first : next 0x7d 0x20 s = some (c, between))
    : let escaped := request.getD content 0 = 0x7d
      let content := if escaped then content + 1 else content
      (if escaped then request.getD content 0 ^^^ 0x20 else request.getD content 0) = c
      ∧ request.drop (content + 1) = between ++ tail := by
  have read (i : Nat) : request.getD (content + i) 0 = (s ++ tail).getD i 0 := by
    rw [← held, List.getD_eq_getElem?_getD, List.getD_eq_getElem?_getD, List.getElem?_drop]
  have dropped (i : Nat) : request.drop (content + i) = (s ++ tail).drop i := by
    rw [← held, List.drop_drop]
  have readFirst := read 0
  rw [Nat.add_zero] at readFirst
  cases s with
  | nil => cases first
  | cons d s =>
      rw [List.cons_append, List.getD_cons_zero] at readFirst
      by_cases escaped : d = 0x7d
      · subst escaped
        cases s with
        | nil => cases first
        | cons e s =>
            rw [next_escape] at first
            obtain ⟨rfl, rfl⟩ := Prod.mk.inj (Option.some.inj first)
            simp only [readFirst, if_true, read, dropped, Nat.add_assoc]
            exact ⟨rfl, rfl⟩
      · rw [next_plain escaped] at first
        obtain ⟨rfl, rfl⟩ := Prod.mk.inj (Option.some.inj first)
        simp only [readFirst, escaped, if_false, dropped, true_and]
        rfl

/-- The loop stores what the content stands for up to the end of memory, by induction on the
size.
-/
theorem storedBinary_eq {request s tail data rest : List (BitVec 8)} {mem : Memory}
    {n content : Nat} {address : BitVec 32} (held : request.drop content = s ++ tail)
    (decoded : decode 0x7d 0x20 (min (readable mem n address + 1) n) s = some (data, rest))
    : storedBinary request n address content mem
      = (decide (readable mem n address = n),
          withBytes mem address (data.take (readable mem n address))) := by
  induction n generalizing mem address content s data with
  | zero => rfl
  | succ n ih =>
      by_cases inside : address.toNat < mem.size
      · rw [readable, if_pos inside, Nat.add_min_add_right] at decoded
        obtain ⟨c, between, later, first, rfl, restDecoded⟩ := decode_succ_eq_some decoded
        obtain ⟨value, dropped⟩ := getD_next held first
        have size : (mem.setByte address c).size = mem.size := rfl
        have kept : readable (mem.setByte address c) n (address + 1)
            = readable mem n (address + 1) :=
          readable_congr size n (address + 1)
        have written : (memoryWriteByte mem address c).2 = mem.setByte address c := by
          rw [memoryWriteByte_eq, if_pos ((accessible_one_iff mem address).mpr inside)]
          rfl
        simp only [storedBinary, value, inside, if_true, written, readable]
        rw [ih dropped (by rwa [kept]), kept, List.take_succ_cons, withBytes]
        simp only [Nat.add_right_cancel_iff]
      · have none : ¬ 0 = n + 1 := (Nat.succ_ne_zero n).symm
        simp only [storedBinary, inside, if_false, readable, List.take_zero, withBytes, none,
          decide_false]

theorem noNul_of_isHex {s : List (BitVec 8)} (hex : IsHex s) : NoNul s := by
  intro c member
  exact (hexDigit_plain c (hex.2 c member)).2.2.2.2.2

/-- Two numbers at the start of the arguments, up to the first NUL behind them. -/
theorem arguments_pair (command : BitVec 8) {first second : List (BitVec 8)} (isFirst : IsHex first)
    (isSecond : IsHex second) (rest : List (BitVec 8))
    : arguments (command :: (first ++ ascii ',' :: (second ++ rest)))
      = first ++ ascii ',' :: (second ++ rest.takeWhile fun c => c ≠ 0) := by
  have kept {s : List (BitVec 8)} (hex : IsHex s) : ∀ c ∈ s, decide (c ≠ 0) = true :=
    fun c member => decide_eq_true (noNul_of_isHex hex c member)
  rw [arguments, List.drop_succ_cons, List.drop_zero, List.takeWhile_append_of_pos (kept isFirst),
    List.takeWhile_cons_of_pos (by decide), List.takeWhile_append_of_pos (kept isSecond)]

/-- A place that is found is inside the arguments. -/
theorem indexOf_arguments_lt {command c : BitVec 8} {args : List (BitVec 8)} {i : Nat}
    (found : indexOf (arguments (command :: args)) c = some i)
    : i + 2 ≤ (command :: args).length := by
  have inside : i < (arguments (command :: args)).length := by
    rw [indexOf] at found
    exact (List.findIdx?_eq_some_iff_getElem.mp found).1
  have shorter : (args.takeWhile fun c => c ≠ 0).length ≤ args.length :=
    (List.takeWhile_prefix _).length_le
  rw [List.length_cons]
  rw [arguments, List.drop_succ_cons, List.drop_zero] at inside
  omega

theorem IsWord.scanned {s : List (BitVec 8)} {value : BitVec 32} (word : IsWord s value) (env : Env)
    (old : BitVec 32)
    : scannedValue env old (some (hexValue s : Int)) = value := by
  rw [word.2, scannedValue_toNat]

/-- A handler that always ends in `t` gives the answer. -/
theorem answers_of_handler {env : Env} {gdb t : Session} {command : BitVec 8}
    {rest reply : List (BitVec 8)} {handle : List (BitVec 8) → Nat → Act Unit}
    (found : handler env command = some handle)
    (ends
      : ∀ digits behind,
          Meets InPacket (fun _ => False) (fun _ u => u = t)
            (handle (heldRequest (command :: rest) digits behind) 2) gdb.acknowledged)
    (sent : t.sent = gdb.sent ++ text "+" ++ frame reply)
    : Answers env gdb (command :: rest) reply t := by
  refine ⟨sent, fun digits behind valid => ?_⟩
  have met := ends digits behind
  rw [← dispatch_heldRequest found, ← meets_gdbPacketAnalysis env behind valid] at met
  obtain ⟨⟨⟩, u, result, rfl⟩ := met.ends
  exact result

/-- The session that a write leaves. -/
def Session.stored (gdb : Session) (address : BitVec 32) (data : List (BitVec 8)) : Session :=
  Session.replied
    { gdb.acknowledged with
      arm := { gdb.arm with mem := withBytes gdb.arm.mem address data } }
    (text "OK")

section RoundTrip

variable {address size : List (BitVec 8)} (isAddress : IsHex address) (isSize : IsHex size)

include isAddress isSize

theorem scanHexPair_readRequest
    : scanHexPair (arguments (readRequest address size))
      = (some (hexValue address : Int), some (hexValue size : Int)) := by
  have request := arguments_pair (ascii 'm') isAddress isSize []
  rw [List.append_nil, List.takeWhile_nil, List.append_nil] at request
  have numbers := scanHexPair_append isAddress isSize [] fun c head => absurd head (by simp)
  rw [List.append_nil] at numbers
  rw [readRequest, request, numbers]

theorem scanHexPair_writeRequest (encoding : List (BitVec 8))
    : scanHexPair (arguments (writeRequest address size encoding))
      = (some (hexValue address : Int), some (hexValue size : Int)) := by
  rw [writeRequest, arguments_pair _ isAddress isSize]
  refine scanHexPair_append isAddress isSize _ fun c head => ?_
  obtain rfl : ascii ':' = c := Option.some.inj head
  decide

/-- The colon in front of the content is the first one. -/
theorem indexOf_writeRequest (encoding : List (BitVec 8))
    : indexOf (arguments (writeRequest address size encoding)) (ascii ':')
      = some (address.length + size.length + 1) := by
  have plain {s : List (BitVec 8)} (hex : IsHex s) : ∀ c ∈ s, c ≠ ascii ':' := by
    rintro c member rfl
    exact absurd (hex.2 _ member) (by decide)
  have request : arguments (writeRequest address size encoding)
      = (address ++ ascii ',' :: size) ++ ascii ':' :: encoding.takeWhile fun c => c ≠ 0 := by
    rw [writeRequest, arguments_pair _ isAddress isSize, List.takeWhile_cons_of_pos (by decide),
      List.append_assoc, List.cons_append]
  have first : ∀ c ∈ address ++ ascii ',' :: size, c ≠ ascii ':' := by
    intro c member
    rcases List.mem_append.mp member with inAddress | behind
    · exact plain isAddress c inAddress
    · rcases List.mem_cons.mp behind with rfl | inSize
      · decide
      · exact plain isSize c inSize
  rw [request, indexOf_append first, List.length_append, List.length_cons, Nat.add_assoc]

omit isAddress isSize in
/-- The content starts behind the colon. -/
theorem drop_writeRequest (encoding : List (BitVec 8))
    : (writeRequest address size encoding).drop (address.length + size.length + 1 + 2)
      = encoding := by
  let header := ascii 'X' :: (address ++ ascii ',' :: (size ++ [ascii ':']))
  have split : writeRequest address size encoding = header ++ encoding := by
    simp only [writeRequest, header, List.cons_append, List.append_assoc, List.nil_append]
  have length : address.length + size.length + 1 + 2 = header.length := by
    simp only [header, List.length_cons, List.length_append, List.length_nil]
    omega
  rw [split, length, List.drop_left]

end RoundTrip

/-- The bytes that an encoding stands for are written and the answer is OK. -/
theorem answers_writeRequest (env : Env) (gdb : Session) {address : BitVec 32}
    {data encoding addressText sizeText : List (BitVec 8)} (nonempty : 0 < data.length)
    (short : data.length ≤ 509) (inside : address.toNat + data.length ≤ gdb.arm.mem.size)
    (isAddress : IsWord addressText address)
    (isSize : IsWord sizeText (BitVec.ofNat 32 data.length))
    (encodes : Encodes 0x7d 0x20 IsSpecial encoding data)
    : Answers env gdb (writeRequest addressText sizeText encoding) (text "OK")
        (gdb.stored address data) := by
  have checked : ∀ i, InPacket (.write i) ↔ i < MAX_PACKET_SIZE := fun _ => Iff.rfl
  have found : handler env (ascii 'X') = some (writeMemoryBinary env) := rfl
  refine answers_of_handler found (fun digits behind => ?_) rfl
  have size : (BitVec.ofNat 32 data.length).toNat = data.length := by
    rw [BitVec.toNat_ofNat]
    omega
  have notNone : ¬ BitVec.ofNat 32 data.length = 0 := by
    intro none
    rw [none] at size
    exact absurd size.symm (Nat.ne_of_gt nonempty)
  have mem : gdb.acknowledged.arm.mem = gdb.arm.mem := rfl
  have start : ¬ gdb.acknowledged.arm.mem.size ≤ address.toNat := by
    rw [mem]
    omega
  have all : readable gdb.arm.mem data.length address = data.length :=
    readable_eq_of_inside _ _ _ (inside_of_add_le inside)
  have decoded := encodes.decoded (.inr (.inr rfl)) []
  have stored
      : storedBinary (heldRequest (writeRequest addressText sizeText encoding) digits behind)
          data.length address (2 + (addressText.length + sizeText.length + 1) + 1) gdb.arm.mem
        = (true, withBytes gdb.arm.mem address data) := by
    have held := drop_heldRequest (writeRequest addressText sizeText encoding) digits behind
      (indexOf_arguments_lt (indexOf_writeRequest isAddress.1 isSize.1 encoding))
    rw [drop_writeRequest] at held
    have count : min (readable gdb.arm.mem data.length address + 1) data.length = data.length := by
      rw [all, Nat.min_eq_right (Nat.le_succ _)]
    rw [List.append_nil, ← count] at decoded
    rw [Nat.add_comm 2, storedBinary_eq held decoded, all, List.take_length, decide_eq_true rfl]
  have string : stringAt (heldRequest (writeRequest addressText sizeText encoding) digits behind) 2
      = arguments (writeRequest addressText sizeText encoding) :=
    stringAt_arguments _ _ _ _
  refine (meets_writeMemoryBinary checked env _ 2).mpr ?_
  rw [← writeRequest, string, scanHexPair_writeRequest isAddress.1 isSize.1,
    indexOf_writeRequest isAddress.1 isSize.1]
  simp only [isAddress.scanned, isSize.scanned, start, notNone, if_false, size]
  refine ⟨trivial, fun _ => trivial, fun _ => trivial, readsContent_inPacket _ _ _ _ _, ?_⟩
  rw [mem, stored, if_pos rfl]
  rfl

/-- Bytes in memory are answered with their digits. -/
theorem answers_readRequest (env : Env) (gdb : Session) {address : BitVec 32} {n : Nat}
    {addressText sizeText : List (BitVec 8)} (short : n ≤ 509)
    (inside : address.toNat + n ≤ gdb.arm.mem.size) (isAddress : IsWord addressText address)
    (isSize : IsWord sizeText (BitVec.ofNat 32 n))
    : Answers env gdb (readRequest addressText sizeText)
        (hexText (memoryBytes gdb.arm.mem n address))
        (gdb.acknowledged.replied (hexText (memoryBytes gdb.arm.mem n address))) := by
  have checked : ∀ i, InPacket (.write i) ↔ i < MAX_PACKET_SIZE := fun _ => Iff.rfl
  have found : handler env (ascii 'm') = some (readMemory env) := rfl
  refine answers_of_handler found (fun digits behind => ?_) rfl
  have size : (BitVec.ofNat 32 n).toNat = n := by
    rw [BitVec.toNat_ofNat]
    omega
  have mem : gdb.acknowledged.arm.mem = gdb.arm.mem := rfl
  have all : readable gdb.arm.mem n address = n :=
    readable_eq_of_inside _ _ _ (inside_of_add_le inside)
  have string : stringAt (heldRequest (readRequest addressText sizeText) digits behind) 2
      = arguments (readRequest addressText sizeText) :=
    stringAt_arguments _ _ _ _
  refine (meets_readMemory checked env _ 2).mpr ?_
  rw [← readRequest, string, scanHexPair_readRequest isAddress.1 isSize.1]
  simp only [isAddress.scanned, isSize.scanned, memoryReply, size, mem, all]
  have fits : 2 * n + 4 < MAX_PACKET_SIZE := by
    change 2 * n + 4 < 1024
    omega
  exact ⟨trivial, fun _ => trivial, fun _ _ => trivial, fits, trivial⟩

/-- What is written in binary is read back. For each text of at most 509 bytes, each encoding of it
and each address where it fits, the write is answered OK, puts the text there and changes no other
byte, and a read is then answered with the digits of the text.
-/
theorem writeMemoryBinary_readsBack (env : Env) (gdb : Session) {address : BitVec 32}
    {data encoding addressText sizeText : List (BitVec 8)} (nonempty : 0 < data.length)
    (short : data.length ≤ 509) (inside : address.toNat + data.length ≤ gdb.arm.mem.size)
    (isAddress : IsWord addressText address)
    (isSize : IsWord sizeText (BitVec.ofNat 32 data.length))
    (encodes : Encodes 0x7d 0x20 IsSpecial encoding data)
    : ∃ t u,
        Answers env gdb (writeRequest addressText sizeText encoding) (text "OK") t
        ∧ (∀ i (below : i < data.length),
            t.arm.mem.data (address + BitVec.ofNat 32 i).toNat = data[i])
        ∧ (∀ j,
            (∀ i < data.length, j ≠ (address + BitVec.ofNat 32 i).toNat)
            → t.arm.mem.data j = gdb.arm.mem.data j)
        ∧ Answers env t (readRequest addressText sizeText) (hexText data) u := by
  let t := gdb.stored address data
  have fits : data.length ≤ 2 ^ 32 := by omega
  have size : t.arm.mem.size = gdb.arm.mem.size := size_withBytes gdb.arm.mem address data
  have bytes : memoryBytes t.arm.mem data.length address = data :=
    memoryBytes_withBytes gdb.arm.mem address data fits
  have read := answers_readRequest env t short (size ▸ inside) isAddress isSize
  rw [bytes] at read
  exact ⟨t, t.acknowledged.replied (hexText data),
    answers_writeRequest env gdb nonempty short inside isAddress isSize encodes,
    fun i below => withBytes_inside gdb.arm.mem address data fits below,
    fun j outside => withBytes_outside gdb.arm.mem address data outside, read⟩

/-- `A#` at address 16: the `#` is escaped. -/
theorem twoBytes_readBack
    : ∃ t u,
        Answers .plain (oneWordSession 64)
          (writeRequest (text "10") (text "2") [ascii 'A', 0x7d, 0x03]) (text "OK") t
        ∧ (∀ i (below : i < (text "A#").length),
            t.arm.mem.data (16#32 + BitVec.ofNat 32 i).toNat = (text "A#")[i])
        ∧ (∀ j,
            (∀ i < (text "A#").length, j ≠ (16#32 + BitVec.ofNat 32 i).toNat)
            → t.arm.mem.data j = (oneWordSession 64).arm.mem.data j)
        ∧ Answers .plain t (readRequest (text "10") (text "2")) (hexText (text "A#")) u := by
  have address : IsWord (text "10") 16#32 := by decide +kernel
  have hash : Encodes 0x7d 0x20 IsSpecial (0x7d :: (ascii '#' ^^^ 0x20) :: []) (ascii '#' :: []) :=
    .escaped .nil
  exact writeMemoryBinary_readsBack .plain (oneWordSession 64) (by decide) (by decide) (by decide)
    address (by decide +kernel) (.plain (by decide) hash)

end Armator.Gdb
