import Armator.Correctness.PacketBounds
import Armator.Correctness.Scanning

/-! Replies are accepted as packets, and packets with another checksum are refused. -/

namespace Armator.Gdb

open CText Traced

/-- The bytes that may stand between the `$` and the `#` of a packet. -/
def IsPayload (s : List (BitVec 8)) : Prop :=
  ∀ c ∈ s, c ≠ ascii '$' ∧ c ≠ ascii '#'

instance (s : List (BitVec 8)) : Decidable (IsPayload s) :=
  inferInstanceAs (Decidable (∀ c ∈ s, _))

/-- The text of a packet that ends with these digits. -/
def requestText (payload digits : List (BitVec 8)) : List (BitVec 8) :=
  ascii '$' :: payload ++ ascii '#' :: digits

/-- Two hexadecimal digits. -/
def AreDigits (digits : List (BitVec 8)) : Prop :=
  digits.length = 2 ∧ ∀ c ∈ digits, (hexDigit c).isSome

/-- How `gdb_packet_analysis` runs on the text of a packet. -/
def analysisOf (env : Env) (s behind : List (BitVec 8)) (gdb : Session)
    : Ran Event Stop Session Unit :=
  gdbPacketAnalysis env (s ++ 0 :: behind) s.length gdb

/-- What the server does with an accepted payload: the handler of its first byte gets the rest as a
string, and without a handler the answer is empty.
-/
def AnsweredBy (env : Env) (payload : List (BitVec 8)) (gdb : Session)
    (ran : Ran Event Stop Session Unit)
    : Prop :=
  match payload with
  | [] => ran = gdbSendData [] gdb
  | command :: rest =>
      match handler env command with
      | none => ran = gdbSendData [] gdb
      | some handle => ∃ packet, stringAt packet 2 = rest ∧ ran = handle packet 2 gdb

/-- A single `-` is sent, and nothing else happens. -/
def Refused (gdb : Session) (ran : Ran Event Stop Session Unit) : Prop :=
  ran = { events := [], result := .ok ((), { gdb with sent := gdb.sent ++ text "-" }) }

theorem AreDigits.isHex {digits : List (BitVec 8)} (areDigits : AreDigits digits)
    : IsHex digits := by
  refine ⟨?_, areDigits.2⟩
  rintro rfl
  exact absurd areDigits.1 (by decide)

theorem areDigits_printHex2 (b : BitVec 8) : AreDigits (printHex2 b) :=
  ⟨rfl, hexDigit_printHex2 b⟩

/-- The checksum of a packet is compared with its digits. -/
theorem analysisOf_requestText (env : Env) (payload : List (BitVec 8)) {digits : List (BitVec 8)}
    (areDigits : AreDigits digits) (behind : List (BitVec 8)) (gdb : Session)
    : analysisOf env (requestText payload digits) behind gdb
      = if hexValue digits = (checksum payload).toNat then
          dispatch env (heldRequest payload digits behind) gdb.acknowledged
        else { events := [], result := .ok ((), gdb.rejected) } := by
  have length : (requestText payload digits).length = payload.length + 4 := by
    simp [requestText, areDigits.1]
  rw [analysisOf, length]
  exact gdbPacketAnalysis_eq env areDigits.isHex areDigits.1 payload behind gdb

theorem refused_of_ne (env : Env) {payload digits : List (BitVec 8)} (areDigits : AreDigits digits)
    (other : hexValue digits ≠ (checksum payload).toNat) (behind : List (BitVec 8)) (gdb : Session)
    : Refused gdb (analysisOf env (requestText payload digits) behind gdb) := by
  rw [analysisOf_requestText env payload areDigits, if_neg other]
  rfl

-----------------------------------------------------------------------------------------
-- Checksums
-----------------------------------------------------------------------------------------

theorem foldl_checksum (s : List (BitVec 8)) (start : BitVec 8)
    : s.foldl (fun check c => check + c) start = start + checksum s := by
  induction s generalizing start with
  | nil => exact (BitVec.add_zero start).symm
  | cons c s ih =>
      have first : checksum (c :: s) = s.foldl (fun check c => check + c) (0 + c) := rfl
      have zero : 0 + c = c := BitVec.zero_add c
      rw [List.foldl_cons, ih, first, ih, zero, BitVec.add_assoc]

theorem checksum_append (s t : List (BitVec 8)) : checksum (s ++ t) = checksum s + checksum t := by
  rw [checksum, List.foldl_append, foldl_checksum]
  rfl

theorem checksum_cons (c : BitVec 8) (s : List (BitVec 8)) : checksum (c :: s) = c + checksum s :=
  checksum_append [c] s |>.trans (congrArg (· + checksum s) (BitVec.zero_add c))

/-- Another byte at one place gives another checksum. -/
theorem checksum_set_ne {s : List (BitVec 8)} {i : Nat} (inside : i < s.length) {c : BitVec 8}
    (other : c ≠ s[i])
    : checksum (s.set i c) ≠ checksum s := by
  have around (d : BitVec 8)
      : checksum (s.set i d) = checksum (s.take i) + (d + checksum (s.drop (i + 1))) := by
    rw [List.set_eq_take_append_cons_drop, if_pos inside, checksum_append, checksum_cons]
  have unchanged := around s[i]
  rw [List.set_getElem_self] at unchanged
  intro same
  rw [around, unchanged, BitVec.add_right_inj, BitVec.add_left_inj] at same
  exact other same

/-- A valid packet with another byte in its payload is refused. -/
theorem refused_of_set (env : Env) {payload digits : List (BitVec 8)}
    (valid : ChecksumDigits payload digits) {i : Nat} (inside : i < payload.length) {c : BitVec 8}
    (other : c ≠ payload[i]) (behind : List (BitVec 8)) (gdb : Session)
    : Refused gdb (analysisOf env (requestText (payload.set i c) digits) behind gdb) := by
  obtain ⟨hex, two, sum⟩ := valid
  refine refused_of_ne env ⟨two, hex.2⟩ (fun same => ?_) behind gdb
  rw [sum] at same
  exact checksum_set_ne inside other (BitVec.eq_of_toNat_eq same).symm

-----------------------------------------------------------------------------------------
-- Replies
-----------------------------------------------------------------------------------------

/-- What `gdb_send_buffer` makes of a text that fits. -/
theorem gdbSendBuffer_result (gdb : Session) {s : List (BitVec 8)} (noNul : NoNul s)
    (fits : s.length + 4 < MAX_PACKET_SIZE)
    : (gdbSendBuffer (gdb.withText s)).result = .ok ((), gdb.replied s) := by
  have checked : ∀ i, InPacket (.write i) ↔ i < MAX_PACKET_SIZE := fun _ => Iff.rfl
  have met
      : Meets InPacket (fun _ => False) (fun _ t => t = gdb.replied s) gdbSendBuffer
          (gdb.withText s) :=
    (meets_gdbSendBuffer checked s noNul (by omega)).mpr ⟨fits, rfl⟩
  obtain ⟨⟨⟩, t, result, rfl⟩ := met.ends
  exact result

/-- A frame is accepted. -/
theorem answeredBy_frame (env : Env) {s : List (BitVec 8)} (noNul : NoNul s)
    (behind : List (BitVec 8)) (gdb : Session)
    : AnsweredBy env s gdb.acknowledged (analysisOf env (frame s) behind gdb) := by
  have text : frame s = requestText s (printHex2 (checksum s)) := rfl
  rw [text, analysisOf_requestText env s (areDigits_printHex2 _), if_pos (hexValue_printHex2 _)]
  cases s with
  | nil => rfl
  | cons command rest =>
      have index : (heldRequest (command :: rest) (printHex2 (checksum (command :: rest))) behind).getD
          1 0 = command :=
        getD_heldRequest (command :: rest) _ behind 0 (Nat.succ_pos _)
      rw [AnsweredBy, dispatch, index]
      cases handler env command with
      | none => rfl
      | some handle =>
          refine ⟨_, ?_, rfl⟩
          rw [stringAt_arguments]
          exact arguments_of_noNul command fun c member =>
            noNul c (List.mem_cons_of_mem command member)

/-- The two sides of the protocol agree on frames. A reply that fits into the buffer is sent as the
frame of its text; this frame is one for the scanner, is acknowledged and dispatched. A frame with
another checksum is refused, and so is each valid frame with one other byte in its payload.
-/
theorem framing_agrees (env : Env) (gdb : Session) (behind : List (BitVec 8))
    : (∀ s, NoNul s → IsPayload s
        → (s.length + 4 < MAX_PACKET_SIZE
            → (gdbSendBuffer (gdb.withText s)).result = .ok ((), gdb.replied s))
          ∧ (gdb.replied s).sent = gdb.sent ++ frame s
          ∧ IsFrame (frame s)
          ∧ gdb.acknowledged.sent = gdb.sent ++ text "+"
          ∧ AnsweredBy env s gdb.acknowledged (analysisOf env (frame s) behind gdb))
      ∧ (∀ payload digits, IsPayload payload → AreDigits digits
        → hexValue digits ≠ (checksum payload).toNat
        → Refused gdb (analysisOf env (requestText payload digits) behind gdb))
      ∧ ∀ payload digits, IsPayload payload → ChecksumDigits payload digits
        → ∀ i (inside : i < payload.length), ∀ c, c ≠ payload[i] → c ≠ ascii '$' → c ≠ ascii '#'
        → Refused gdb (analysisOf env (requestText (payload.set i c) digits) behind gdb) := by
  refine ⟨fun s noNul payload => ?_, ?_, ?_⟩
  · exact ⟨gdbSendBuffer_result gdb noNul, rfl, ⟨s, _, rfl, payload, areDigits_printHex2 _⟩, rfl,
      answeredBy_frame env noNul behind gdb⟩
  · intro payload digits _ areDigits other
    exact refused_of_ne env areDigits other behind gdb
  · intro payload digits _ valid i inside c other _ _
    exact refused_of_set env valid inside other behind gdb

/-- `p19` is framed and dispatched. With the checksum of `p18`, or sent as `p18`, it is refused. -/
theorem readRegister_framed
    : (gdbSendBuffer ((oneWordSession 4).withText (text "p19"))).result
        = .ok ((), (oneWordSession 4).replied (text "p19"))
      ∧ AnsweredBy .plain (text "p19") (oneWordSession 4).acknowledged
          (analysisOf .plain (text "$p19#da") [] (oneWordSession 4))
      ∧ Refused (oneWordSession 4) (analysisOf .plain (text "$p19#d9") [] (oneWordSession 4))
      ∧ Refused (oneWordSession 4)
          (analysisOf .plain (text "$p18#da") [] (oneWordSession 4)) := by
  obtain ⟨framed, otherSum, otherByte⟩ := framing_agrees .plain (oneWordSession 4) []
  obtain ⟨sent, -, -, -, answered⟩ := framed (text "p19") (by decide) (by decide)
  have frameText : frame (text "p19") = text "$p19#da" := by decide
  rw [frameText] at answered
  refine ⟨sent (by decide), answered, ?_, ?_⟩
  · exact otherSum (text "p19") (text "d9") (by decide) ⟨rfl, by decide⟩ (by decide)
  · exact otherByte (text "p19") (text "da") (by decide) (by decide) 2 (by decide) (ascii '8')
      (by decide) (by decide) (by decide)

end Armator.Gdb
