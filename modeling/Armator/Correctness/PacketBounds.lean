import Armator.Correctness.Dispatch
import Armator.Correctness.PacketAnalysis

/-! Which requests are answered inside the packet buffer. -/

namespace Armator.Gdb

open CText Traced

/-- A write to `packet` is inside the array. -/
def InPacket : Event → Prop
  | .write index => index < MAX_PACKET_SIZE
  | _ => True

/-- Every index written while the packet is handled is inside the array. -/
def WritesInPacket (env : Env) (gdb : Session) (payload digits behind : List (BitVec 8)) : Prop :=
  ∀ event ∈ (gdbPacketAnalysis env (requestBuffer payload digits behind) (payload.length + 4)
      gdb).events,
    InPacket event

/-- The text behind the first byte of a payload, up to a NUL. -/
def arguments (payload : List (BitVec 8)) : List (BitVec 8) :=
  (payload.drop 1).takeWhile fun c => c ≠ 0

theorem stringAt_arguments (command : BitVec 8) (rest digits behind : List (BitVec 8))
    : stringAt (heldRequest (command :: rest) digits behind) 2 = arguments (command :: rest) :=
  stringAt_heldRequest (command :: rest) digits behind (Nat.succ_pos _)

/-- Arguments without a NUL are the string that the handler reads. -/
theorem arguments_of_noNul (command : BitVec 8) {args : List (BitVec 8)} (noNul : NoNul args)
    : arguments (command :: args) = args :=
  noNul.takeWhile_eq

/-- The request does not ask for more than 509 bytes of memory that are there. Numbers that the
payload does not have are those that the variables happened to hold.
-/
def AsksForFewBytes (env : Env) (mem : Memory) (payload : List (BitVec 8)) : Prop :=
  let numbers := scanHexPair (arguments payload)
  let size := scannedValue env env.unset.size numbers.2
  let address := scannedValue env env.unset.address numbers.1
  payload.head? = some (ascii 'm')
  → size.toNat ≤ 509 ∨ ∃ i ≤ 509, mem.size ≤ (address + BitVec.ofNat 32 i).toNat

/-- The loop of `read_memory` reads up to the first address outside memory, by induction on the
size.
-/
theorem readable_le_iff (mem : Memory) (size : Nat) (address : BitVec 32) (k : Nat)
    : readable mem size address ≤ k
      ↔ size ≤ k ∨ ∃ i ≤ k, mem.size ≤ (address + BitVec.ofNat 32 i).toNat := by
  induction size generalizing address k with
  | zero => exact iff_of_true (Nat.zero_le k) (.inl (Nat.zero_le k))
  | succ size ih =>
      have first : address + BitVec.ofNat 32 0 = address := BitVec.add_zero address
      have next (i : Nat)
          : address + 1 + BitVec.ofNat 32 i = address + BitVec.ofNat 32 (i + 1) := by
        rw [BitVec.add_assoc, Nat.add_comm i 1, BitVec.ofNat_add]
        rfl
      by_cases inside : address.toNat < mem.size
      · rw [readable, if_pos inside]
        cases k with
        | zero =>
            refine iff_of_false (Nat.not_succ_le_zero _) ?_
            rintro (small | ⟨i, low, outside⟩)
            · exact Nat.not_succ_le_zero _ small
            · obtain rfl : i = 0 := Nat.le_zero.mp low
              rw [first] at outside
              exact absurd inside (Nat.not_lt.mpr outside)
        | succ k =>
            rw [Nat.succ_le_succ_iff, ih, Nat.succ_le_succ_iff]
            refine or_congr_right ⟨?_, ?_⟩
            · rintro ⟨i, low, outside⟩
              rw [next] at outside
              exact ⟨i + 1, Nat.succ_le_succ low, outside⟩
            · rintro ⟨i, low, outside⟩
              cases i with
              | zero =>
                  rw [first] at outside
                  exact absurd inside (Nat.not_lt.mpr outside)
              | succ i =>
                  rw [← next] at outside
                  exact ⟨i, Nat.le_of_succ_le_succ low, outside⟩
      · rw [readable, if_neg inside]
        refine iff_of_true (Nat.zero_le k) (.inr ⟨0, Nat.zero_le k, ?_⟩)
        rw [first]
        exact Nat.le_of_not_lt inside

/-- Content may be read where every byte may, by induction on the size. -/
theorem readsContent_of_readByte {allowed : Event → Prop} (reads : ∀ i, allowed (.readByte i))
    (request : List (BitVec 8)) (memSize size : Nat) (address : BitVec 32) (content : Nat)
    : ReadsContent allowed request memSize size address content := by
  induction size generalizing address content with
  | zero => trivial
  | succ size ih => exact ⟨reads _, reads _, fun _ => ih _ _⟩

theorem readsContent_inPacket (request : List (BitVec 8)) (memSize size : Nat)
    (address : BitVec 32) (content : Nat)
    : ReadsContent InPacket request memSize size address content :=
  readsContent_of_readByte (fun _ => trivial) request memSize size address content

/-- Every handler but the one of `m` stays inside the packet. Witness: one case for each. -/
theorem inPacket_of_handler (env : Env) {index : BitVec 8}
    {handle : List (BitVec 8) → Nat → Act Unit} (found : handler env index = some handle)
    (other : index ≠ ascii 'm') (packet : List (BitVec 8)) (gdb : Session)
    : Meets InPacket (fun _ => True) (fun _ _ => True) (handle packet 2) gdb := by
  have checked : ∀ i, InPacket (.write i) ↔ i < MAX_PACKET_SIZE := fun _ => Iff.rfl
  have reads (position : Nat) : ReadsByte InPacket packet position := ⟨trivial, fun _ => trivial⟩
  cases entry_of_handler found with
  | cont =>
      rw [cont, meets_bind]
      exact meets_contLoop env _ _ gdb fun t => (meets_sendStopReason checked).mpr trivial
  | killRequest => exact (meets_log _).mpr ⟨trivial, trivial⟩
  | query => exact (meets_query checked packet 2).mpr ⟨trivial, trivial⟩
  | readGeneralRegisters => exact (meets_readGeneralRegisters checked env).mpr trivial
  | readMemory => exact absurd rfl other
  | readRegister =>
      refine (meets_readRegisterRequest checked env packet 2).mpr ⟨trivial, fun _ => trivial, ?_⟩
      split <;> trivial
  | reason => exact (meets_sendStopReason checked).mpr trivial
  | setThread =>
      refine (meets_setThread checked env packet 2).mpr ⟨trivial, trivial, ?_⟩
      split
      · exact ⟨fun _ => trivial, trivial⟩
      · trivial
  | step =>
      rw [stepRequest, meets_bind]
      exact meets_stepArm env gdb fun t => (meets_sendStopReason checked).mpr trivial
  | writeGeneralRegisters =>
      exact (meets_writeGeneralRegisters checked env packet 2).mpr
        ⟨fun _ _ _ _ => reads _, trivial⟩
  | writeMemoryBinary =>
      refine (meets_writeMemoryBinary checked env packet 2).mpr
        ⟨trivial, fun _ => trivial, fun _ => trivial, ?_⟩
      split
      · trivial
      split
      · trivial
      cases indexOf (stringAt packet 2) (ascii ':') with
      | none => trivial
      | some i => exact ⟨readsContent_inPacket _ _ _ _ _, trivial⟩
  | writeRegister =>
      refine (meets_writeRegisterRequest checked env packet 2).mpr ⟨trivial, ?_⟩
      cases indexOf (stringAt packet 2) (ascii '=') with
      | none => trivial
      | some i =>
          refine ⟨fun _ _ => reads _, fun _ => trivial, ?_⟩
          split <;> trivial

/-- The answer to a held request stays inside the packet iff the request is for few bytes. -/
theorem dispatch_inPacket_iff (env : Env) (gdb : Session) (payload digits behind : List (BitVec 8))
    : Meets InPacket (fun _ => True) (fun _ _ => True)
        (dispatch env (heldRequest payload digits behind)) gdb
      ↔ AsksForFewBytes env gdb.arm.mem payload := by
  have checked : ∀ i, InPacket (.write i) ↔ i < MAX_PACKET_SIZE := fun _ => Iff.rfl
  rw [dispatch, AsksForFewBytes]
  cases payload with
  | nil =>
      refine iff_of_true ?_ fun first => absurd first (by simp)
      have unknown : handler env ((heldRequest [] digits behind).getD 1 0) = none := rfl
      rw [unknown]
      exact (meets_gdbSendData_short checked [] (by decide)).mpr trivial
  | cons command rest =>
      have index : (heldRequest (command :: rest) digits behind).getD 1 0 = command :=
        getD_heldRequest (command :: rest) digits behind 0 (Nat.succ_pos _)
      rw [index, List.head?_cons, Option.some.injEq]
      by_cases asks : command = ascii 'm'
      · subst asks
        have found : handler env (ascii 'm') = some (readMemory env) := rfl
        have data := stringAt_arguments (ascii 'm') rest digits behind
        have room (n : Nat) : 2 * n + 4 < MAX_PACKET_SIZE ↔ n ≤ 509 := by
          simp only [MAX_PACKET_SIZE]
          omega
        rw [found]
        refine (meets_readMemory checked env _ 2).trans ?_
        simp only [data, room, readable_le_iff, forall_const]
        constructor
        · exact fun met => met.2.2.2.1
        · exact fun few => ⟨trivial, fun _ => trivial, fun _ _ => trivial, few, trivial⟩
      · refine iff_of_true ?_ fun same => absurd same asks
        cases found : handler env command with
        | none =>
            exact (meets_gdbSendData_short checked [] (by decide)).mpr trivial
        | some handle => exact inPacket_of_handler env found asks _ _

/-- An accepted request is answered inside the packet iff it does not ask for more than 509 bytes
of memory that are there: the reply has two digits for each byte, and four more bytes and a NUL.
-/
theorem writesInPacket_iff (env : Env) (gdb : Session) (payload digits behind : List (BitVec 8))
    (valid : ChecksumDigits payload digits)
    : WritesInPacket env gdb payload digits behind
      ↔ AsksForFewBytes env gdb.arm.mem payload := by
  rw [WritesInPacket, ← meets_events_iff, meets_gdbPacketAnalysis env behind valid]
  exact dispatch_inPacket_iff env gdb.acknowledged payload digits behind

/-- A server on a machine that chooses 0 wherever C leaves the choice. -/
def Env.plain : Env where
  host := .plain .little
  bigEndianSimulator := false
  scanBeyond _ := 0
  atoiBeyond _ := 0
  unset :=
    { address := 0, size := 0, reg := 0, given := 0, instruction := 0, value := fun _ => 0 }
  fuel := 0

/-- The digits that belong to a payload. -/
def checksumText (payload : List (BitVec 8)) : List (BitVec 8) :=
  printHex2 (checksum payload)

/-- A first session of a processor with one instruction. -/
def oneWordSession (size : Nat) : Session :=
  gdbInitData (oneWord size 0) fun _ => 0

/-- `m0,4` is answered in 12 bytes. -/
theorem readFourBytes_inPacket
    : WritesInPacket .plain (oneWordSession 4) (text "m0,4") (checksumText (text "m0,4")) [] :=
  (writesInPacket_iff .plain (oneWordSession 4) (text "m0,4") (checksumText (text "m0,4")) []
    (by decide +kernel)).mpr fun _ => .inl (by decide +kernel)

/-- `m0,1fe` asks for 510 bytes: the final NUL of the reply is written at index 1024. -/
theorem read510Bytes_beyondPacket
    : ChecksumDigits (text "m0,1fe") (checksumText (text "m0,1fe"))
      ∧ ¬ WritesInPacket .plain (oneWordSession 1024) (text "m0,1fe")
          (checksumText (text "m0,1fe")) [] := by
  have valid : ChecksumDigits (text "m0,1fe") (checksumText (text "m0,1fe")) := by
    decide +kernel
  refine ⟨valid, ?_⟩
  rw [WritesInPacket, ← meets_events_iff, meets_gdbPacketAnalysis .plain [] valid,
    dispatch_inPacket_iff]
  intro few
  have numbers : scanHexPair (arguments (text "m0,1fe")) = (some 0, some 510) := by
    decide +kernel
  have command : (text "m0,1fe").head? = some (ascii 'm') := by decide
  have size : (oneWordSession 1024).acknowledged.arm.mem.size = 1024 := rfl
  rw [AsksForFewBytes, numbers, size] at few
  rcases few command with small | ⟨i, low, outside⟩
  · exact absurd small (by decide)
  · have place : (scannedValue .plain Env.plain.unset.address (some 0) + BitVec.ofNat 32 i).toNat
        = i := by
      rw [BitVec.toNat_add, BitVec.toNat_ofNat, show scannedValue _ _ (some 0) = 0#32 from rfl]
      change (0 + i % 2 ^ 32) % 2 ^ 32 = i
      omega
    rw [place] at outside
    omega

end Armator.Gdb
