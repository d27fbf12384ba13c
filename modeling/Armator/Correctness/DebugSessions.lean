import Armator.Correctness.DebugCommands

/-! Whole sessions of a debugger: what it asks for is done to the target, once and in order, and it
learns the answers, whatever else there is on the connection.
-/

namespace Armator.Gdb

open CText Traced ByteStuffing

-----------------------------------------------------------------------------------------
-- Instructions
-----------------------------------------------------------------------------------------

section Instructions

variable {env : Env} {gdb after : GdbProtocolData}

end Instructions

-----------------------------------------------------------------------------------------
-- Sessions
-----------------------------------------------------------------------------------------

/-- The tokens of requests and single bytes are those of their bytes. -/
theorem scanned_received {received : List Received}
    (plain : ∀ token ∈ received.map Received.token, token.IsPlain)
    : scanned ((received.map Received.token).flatMap Token.bytes) = received.map Received.token :=
  scanned_bytes plain

theorem isPlain_request {payload : List (BitVec 8)} (isPayload : IsPayload payload)
    : (Received.request payload).token.IsPlain :=
  ⟨payload, _, rfl, isPayload, areDigits_printHex2 _⟩

theorem checksumDigits_checksumText (payload : List (BitVec 8))
    : ChecksumDigits payload (checksumText payload) :=
  ⟨(areDigits_printHex2 _).isHex, rfl, hexValue_printHex2 _⟩

section BinaryWrites

variable {address : BitVec 32} {data encoding addressText sizeText : List (BitVec 8)}
  (isAddress : IsWord addressText address)
  (isSize : IsWord sizeText (BitVec.ofNat 32 data.length))

include isAddress isSize

theorem isPayload_readRequest : IsPayload (readRequest addressText sizeText) := by
  have address := (isReply_of_hexDigits isAddress.1.2).2
  have size := (isReply_of_hexDigits isSize.1.2).2
  exact List.forall_mem_cons.mpr ⟨by decide,
    List.forall_mem_append.mpr ⟨address, List.forall_mem_cons.mpr ⟨by decide, size⟩⟩⟩

/-- A binary write is framed like any request if its encoding is clean. -/
theorem isPayload_writeRequest (clean : IsPayload encoding)
    : IsPayload (writeRequest addressText sizeText encoding) := by
  have address := (isReply_of_hexDigits isAddress.1.2).2
  have size := (isReply_of_hexDigits isSize.1.2).2
  have content : IsPayload (sizeText ++ ascii ':' :: encoding) :=
    List.forall_mem_append.mpr ⟨size, List.forall_mem_cons.mpr ⟨by decide, clean⟩⟩
  exact List.forall_mem_cons.mpr ⟨by decide,
    List.forall_mem_append.mpr ⟨address, List.forall_mem_cons.mpr ⟨by decide, content⟩⟩⟩

theorem dispatches_writeRequest (env : Env) {gdb : GdbProtocolData} (nonempty : 0 < data.length)
    (short : data.length ≤ 509) (inside : address.toNat + data.length ≤ gdb.arm.mem.size)
    (encodes : Encodes 0x7d 0x20 IsSpecial encoding data)
    : Dispatches env gdb (writeRequest addressText sizeText encoding) (text "OK")
        { gdb with arm := { gdb.arm with mem := withBytes gdb.arm.mem address data } } := by
  refine ⟨(by decide : IsReply (text "OK")), fun s here => ?_⟩
  subst here
  exact answers_writeRequest env s nonempty short inside isAddress isSize encodes

theorem dispatches_readRequest (env : Env) {gdb : GdbProtocolData} (short : data.length ≤ 509)
    (inside : address.toNat + data.length ≤ gdb.arm.mem.size)
    (holds : memoryBytes gdb.arm.mem data.length address = data)
    : Dispatches env gdb (readRequest addressText sizeText) (hexText data) gdb := by
  refine ⟨isReply_hexText _, fun s here => ?_⟩
  subst here
  have read := answers_readRequest env s short inside isAddress isSize
  rwa [holds] at read

/-- Over the connection, too, what is written in binary is read back, if neither `$` nor `#` occurs
in its encoding.
-/
theorem writtenBytes_readBack (env : Env) (behind : Nat → List (BitVec 8)) (arm : ArmCore)
    (packet buffer : Nat → BitVec 8) (nonempty : 0 < data.length) (short : data.length ≤ 509)
    (inside : address.toNat + data.length ≤ arm.mem.size)
    (encodes : Encodes 0x7d 0x20 IsSpecial encoding data) (clean : IsPayload encoding)
    : ∃ final,
        (yylex env behind
            (frame (writeRequest addressText sizeText encoding)
              ++ frame (readRequest addressText sizeText))
            (gdbScannerData arm packet buffer)).result
          = .ok ((), final)
        ∧ (∀ i (below : i < data.length),
            final.gdb.arm.mem.data (address + BitVec.ofNat 32 i).toNat = data[i])
        ∧ (∀ j,
            (∀ i < data.length, j ≠ (address + BitVec.ofNat 32 i).toNat)
            → final.gdb.arm.mem.data j = arm.mem.data j)
        ∧ scanned final.gdb.sent
          = [.ack, .packet (frame (text "OK")), .ack, .packet (frame (hexText data))] := by
  have fits : data.length ≤ 2 ^ 32 := by omega
  let write := writeRequest addressText sizeText encoding
  let read := readRequest addressText sizeText
  have plain : ∀ token ∈ [.request write, .request read].map Received.token, token.IsPlain :=
    List.forall_mem_cons.mpr ⟨isPlain_request (isPayload_writeRequest isAddress isSize clean),
      List.forall_mem_singleton.mpr (isPlain_request (isPayload_readRequest isAddress isSize))⟩
  have bytes : ([.request write, .request read].map Received.token).flatMap Token.bytes
      = frame write ++ frame read :=
    congrArg (frame write ++ ·) (List.append_nil (frame read))
  have found := scanned_received plain
  rw [bytes] at found
  let start : GdbProtocolData := { arm, targetException := 0 }
  let mem := withBytes arm.mem address data
  let target : GdbProtocolData := { start with arm := { arm with mem } }
  have size : mem.size = arm.mem.size := size_withBytes arm.mem address data
  have written : Dispatches env start write (text "OK") target :=
    dispatches_writeRequest isAddress isSize env nonempty short inside encodes
  have shown : Dispatches env target read (hexText data) target :=
    dispatches_readRequest isAddress isSize env short (size ▸ inside)
      (memoryBytes_withBytes arm.mem address data fits)
  have conversation : Conversation (Dispatches env) { last := [], junk := 0 } start
      [.request write, .request read]
      [.ack, .packet (frame (text "OK")), .ack, .packet (frame (hexText data))] target :=
    .request (checksumDigits_checksumText _) (fun same => absurd (Option.some.inj same) (by decide))
      written
      (.request (checksumDigits_checksumText _)
        (fun same => absurd (Option.some.inj same) (by decide)) shown .ends)
  obtain ⟨final, returns, reached, sent⟩ := yylex_of_conversation packet buffer found conversation
  have held : final.gdb.arm.mem = mem := congrArg (fun gdb : GdbProtocolData => gdb.arm.mem) reached
  refine ⟨final, returns, fun i below => ?_, fun j outside => ?_, sent⟩
  · rw [held]
    exact withBytes_inside arm.mem address data fits below
  · rw [held]
    exact withBytes_outside arm.mem address data outside

end BinaryWrites

/-- `A#` goes to address 16 with the `#` escaped, and comes back as `4123`. -/
theorem escapedBytes_readBack
    : ∃ final,
        (yylex .plain (fun _ => [])
            (frame (writeRequest (text "10") (text "2") [ascii 'A', 0x7d, 0x03])
              ++ frame (readRequest (text "10") (text "2")))
            (gdbScannerData (oneWord 64 0) (fun _ => 0) fun _ => 0)).result
          = .ok ((), final)
        ∧ (∀ i (below : i < (text "A#").length),
            final.gdb.arm.mem.data (16#32 + BitVec.ofNat 32 i).toNat = (text "A#")[i])
        ∧ (∀ j,
            (∀ i < (text "A#").length, j ≠ (16#32 + BitVec.ofNat 32 i).toNat)
            → final.gdb.arm.mem.data j = (oneWord 64 0).mem.data j)
        ∧ scanned final.gdb.sent
          = [.ack, .packet (frame (text "OK")), .ack, .packet (frame (text "4123"))] := by
  have address : IsWord (text "10") 16#32 := ⟨⟨by decide, by decide⟩, by decide⟩
  have size : IsWord (text "2") 2#32 := ⟨⟨by decide, by decide⟩, by decide⟩
  have hash : Encodes 0x7d 0x20 IsSpecial (0x7d :: (ascii '#' ^^^ 0x20) :: []) (ascii '#' :: []) :=
    .escaped .nil
  exact writtenBytes_readBack address size .plain (fun _ => []) (oneWord 64 0) (fun _ => 0)
    (fun _ => 0) (by decide) (by decide) (by decide) (.plain (by decide) hash) (by decide)

end Armator.Gdb
