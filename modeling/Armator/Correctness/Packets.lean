import Armator.Simulator.GdbServer

/-! What the writes to the packet and the sending of a reply leave. -/

namespace Armator.Gdb

open CText Traced

/-- The frame of a reply. -/
def frame (reply : List (BitVec 8)) : List (BitVec 8) :=
  ascii '$' :: reply ++ ascii '#' :: printHex2 (checksum reply)

/-- The session with a text at the start of its buffer. -/
def Session.withText (gdb : Session) (s : List (BitVec 8)) : Session :=
  { gdb with packet := putBytes gdb.packet 1 (s ++ [0]) }

/-- The session after a reply. -/
def Session.replied (gdb : Session) (reply : List (BitVec 8)) : Session :=
  { gdb with
    packet := putBytes gdb.packet 0 (frame reply ++ [0])
    len := reply.length + 4
    sent := gdb.sent ++ frame reply }

/-- A text without NUL. -/
def NoNul (s : List (BitVec 8)) : Prop :=
  ∀ c ∈ s, c ≠ 0

instance (s : List (BitVec 8)) : Decidable (NoNul s) :=
  inferInstanceAs (Decidable (∀ c ∈ s, c ≠ 0))

theorem NoNul.append {first second : List (BitVec 8)} (left : NoNul first) (right : NoNul second)
    : NoNul (first ++ second) := by
  intro c member
  rcases List.mem_append.mp member with inFirst | inSecond
  · exact left c inFirst
  · exact right c inSecond

/-- All of the text is in front of the first NUL. -/
theorem NoNul.takeWhile_eq {s : List (BitVec 8)} (noNul : NoNul s)
    : (s.takeWhile fun c => c ≠ 0) = s :=
  List.takeWhile_eq_self_iff.mpr fun c member => decide_eq_true (noNul c member)

theorem length_printHex2 (b : BitVec 8) : (printHex2 b).length = 2 := rfl

theorem length_frame (reply : List (BitVec 8)) : (frame reply).length = reply.length + 4 := by
  simp [frame, printHex2]

section Writes

variable {allowed : Event → Prop} {stopped : Stop → Prop} {post : Unit → Session → Prop}
  {gdb : Session} (checked : ∀ i, allowed (.write i) ↔ i < MAX_PACKET_SIZE)

include checked

theorem meets_writePacket (index : Nat) (c : BitVec 8)
    : Meets allowed stopped post (writePacket index c) gdb
      ↔ index < MAX_PACKET_SIZE ∧ post () { gdb with packet := putBytes gdb.packet index [c] } := by
  have single : putBytes gdb.packet index [c]
      = fun j => if j = index then c else gdb.packet j := by
    funext j
    by_cases same : j = index
    · simp [putBytes, same]
    · have outside : ¬ (index ≤ j ∧ j < index + [c].length) := by
        simp only [List.length_singleton]
        omega
      rw [putBytes, if_neg outside, if_neg same]
  rw [writePacket, meets_bind, meets_log, checked, single]
  refine and_congr_right fun inside => ?_
  rw [if_pos inside, meets_modify]

/-- Bytes written one after the other, by induction on their list. -/
theorem meets_writeBytes (index : Nat) (bytes : List (BitVec 8)) (fits : index ≤ MAX_PACKET_SIZE)
    : Meets allowed stopped post (each (bytes.zipIdx index) fun (c, i) => writePacket i c) gdb
      ↔ index + bytes.length ≤ MAX_PACKET_SIZE
        ∧ post () { gdb with packet := putBytes gdb.packet index bytes } := by
  induction bytes generalizing index gdb with
  | nil =>
      rw [List.zipIdx_nil, meets_each_nil, putBytes_nil]
      exact (and_iff_right fits).symm
  | cons c rest ih =>
      have joined := putBytes_append gdb.packet index [c] [] rest (Nat.zero_le _)
      rw [List.append_nil, List.length_singleton] at joined
      rw [List.zipIdx_cons, meets_each_cons, meets_writePacket checked, List.length_cons]
      constructor
      · rintro ⟨inside, met⟩
        rw [ih (index + 1) inside, joined] at met
        exact ⟨by omega, met.2⟩
      · rintro ⟨room, met⟩
        have inside : index < MAX_PACKET_SIZE := by omega
        rw [ih (index + 1) inside, joined]
        exact ⟨inside, by omega, met⟩

theorem meets_writeText (index : Nat) (s : List (BitVec 8)) (fits : index ≤ MAX_PACKET_SIZE)
    : Meets allowed stopped post (writeText index s) gdb
      ↔ index + s.length < MAX_PACKET_SIZE
        ∧ post () { gdb with packet := putBytes gdb.packet index (s ++ [0]) } := by
  rw [writeText, meets_writeBytes checked index _ fits, List.length_append, List.length_singleton]
  exact Iff.rfl

/-- A text that goes on with the one in the buffer. -/
theorem meets_writeText_append (before s : List (BitVec 8))
    (fits : before.length + 1 ≤ MAX_PACKET_SIZE)
    : Meets allowed stopped post (writeText (1 + before.length) s) (gdb.withText before)
      ↔ before.length + s.length + 1 < MAX_PACKET_SIZE ∧ post () (gdb.withText (before ++ s)) := by
  have joined := putBytes_append gdb.packet 1 before [0] (s ++ [0]) (by simp)
  have after : { gdb.withText before with
        packet := putBytes (gdb.withText before).packet (1 + before.length) (s ++ [0]) }
      = gdb.withText (before ++ s) := by
    simp only [Session.withText, joined, List.append_assoc]
  have room : 1 + before.length + s.length < MAX_PACKET_SIZE
      ↔ before.length + s.length + 1 < MAX_PACKET_SIZE := by
    constructor <;> intro fits <;> omega
  rw [meets_writeText checked _ s (by omega), after, room]

end Writes

/-- The loop of `gdb_send_buffer` finds the text in the buffer, by induction on it. -/
theorem packetText_putBytes (packet : Nat → BitVec 8) (s : List (BitVec 8)) (noNul : NoNul s)
    (n index : Nat) (fits : s.length ≤ n)
    : packetText (putBytes packet index (s ++ [0])) n index = s := by
  induction s generalizing n index packet with
  | nil =>
      have zero : putBytes packet index ([] ++ [0]) index = 0 := by
        simp [putBytes]
      cases n with
      | zero => rfl
      | succ n => rw [packetText, if_pos zero]
  | cons c rest ih =>
      cases n with
      | zero => exact absurd fits (by simp)
      | succ n =>
          have first : putBytes packet index (c :: rest ++ [0]) index = c := by
            simp [putBytes]
          have joined : putBytes (putBytes packet index [c]) (index + 1) (rest ++ [0])
              = putBytes packet index (c :: rest ++ [0]) :=
            putBytes_append packet index [c] [] (rest ++ [0]) (Nat.zero_le _)
          have notNul := noNul c List.mem_cons_self
          rw [packetText, first, if_neg notNul, ← joined,
            ih _ (fun d member => noNul d (List.mem_cons_of_mem _ member)) n (index + 1)
              (Nat.le_of_succ_le_succ fits)]

section Replies

variable {allowed : Event → Prop} {stopped : Stop → Prop} {post : Unit → Session → Prop}
  {gdb : Session} (checked : ∀ i, allowed (.write i) ↔ i < MAX_PACKET_SIZE)

include checked

/-- A reply needs four bytes besides its text, and the final NUL. -/
theorem meets_gdbSendBuffer (reply : List (BitVec 8)) (noNul : NoNul reply)
    (fits : reply.length + 1 < MAX_PACKET_SIZE)
    : Meets allowed stopped post gdbSendBuffer (gdb.withText reply)
      ↔ reply.length + 4 < MAX_PACKET_SIZE ∧ post () (gdb.replied reply) := by
  let head := ascii '$' :: reply
  have dollar : putBytes (gdb.withText reply).packet 0 [ascii '$']
      = putBytes gdb.packet 0 (head ++ [0]) :=
    putBytes_prepend gdb.packet 0 [ascii '$'] (reply ++ [0])
  have found
      : packetText (putBytes gdb.packet 0 (head ++ [0])) (MAX_PACKET_SIZE - 1) 1 = reply := by
    have joined : putBytes (putBytes gdb.packet 0 [ascii '$']) 1 (reply ++ [0])
        = putBytes gdb.packet 0 (head ++ [0]) :=
      putBytes_append gdb.packet 0 [ascii '$'] [] (reply ++ [0]) (Nat.zero_le _)
    rw [← joined]
    exact packetText_putBytes _ reply noNul _ 1 (by omega)
  have place : 1 + reply.length = 0 + head.length := by
    simp only [head, List.length_cons]
    omega
  have hash : putBytes (putBytes gdb.packet 0 (head ++ [0])) (1 + reply.length) [ascii '#']
      = putBytes gdb.packet 0 (head ++ [ascii '#']) := by
    rw [place]
    exact putBytes_append gdb.packet 0 head [0] [ascii '#'] (Nat.le_refl _)
  have digits : putBytes (putBytes gdb.packet 0 (head ++ [ascii '#'])) (1 + reply.length + 1)
        (printHex2 (checksum reply) ++ [0])
      = putBytes gdb.packet 0 (frame reply ++ [0]) := by
    have joined := putBytes_append gdb.packet 0 (head ++ [ascii '#']) []
      (printHex2 (checksum reply) ++ [0]) (Nat.zero_le _)
    rw [List.append_nil, List.length_append, List.length_singleton, ← Nat.add_assoc, ← place]
      at joined
    rw [joined]
    simp only [head, frame, List.cons_append, List.nil_append, List.append_assoc]
  have final : putBytes (putBytes gdb.packet 0 (frame reply ++ [0])) (1 + reply.length + 3) [0]
      = putBytes gdb.packet 0 (frame reply ++ [0]) := by
    have joined := putBytes_append gdb.packet 0 (frame reply) [0] [0] (Nat.le_refl _)
    have last : 0 + (frame reply).length = 1 + reply.length + 3 := by
      rw [length_frame]
      omega
    rwa [last] at joined
  have sent : (List.range (1 + reply.length + 3)).map (putBytes gdb.packet 0 (frame reply ++ [0]))
      = frame reply := by
    have last : 1 + reply.length + 3 = (frame reply).length := by
      rw [length_frame]
      omega
    rw [last, map_range_putBytes]
  rw [gdbSendBuffer]
  simp only [meets_bind, meets_get, meets_modify, meets_writePacket checked, gdbTransmitPacket,
    rioWriten, dollar, found, hash]
  have room : 1 + reply.length + 1 ≤ MAX_PACKET_SIZE := by omega
  have after : ({ gdb.withText reply with
        packet := putBytes gdb.packet 0 (frame reply ++ [0])
        len := 1 + reply.length + 3
        sent := gdb.sent ++ frame reply } : Session)
      = gdb.replied reply := by
    simp only [Session.withText, Session.replied, Nat.add_comm 1 reply.length, Nat.add_assoc]
  rw [meets_writeText checked _ _ room]
  simp only [digits, final, length_printHex2]
  have sentBefore : (gdb.withText reply).sent = gdb.sent := rfl
  rw [sent, sentBefore, after]
  constructor
  · rintro ⟨-, -, -, fits, met⟩
    exact ⟨by omega, met⟩
  · rintro ⟨fits, met⟩
    exact ⟨by decide, by omega, by omega, by omega, met⟩

theorem meets_gdbSendData (reply : List (BitVec 8)) (noNul : NoNul reply)
    (fits : reply.length + 1 < MAX_PACKET_SIZE)
    : Meets allowed stopped post (gdbSendData reply) gdb
      ↔ reply.length + 4 < MAX_PACKET_SIZE ∧ post () (gdb.replied reply) := by
  have start : ({ gdb with packet := putBytes gdb.packet 1 (reply ++ [0]) } : Session)
      = gdb.withText reply :=
    rfl
  rw [gdbSendData, meets_bind, meets_writeText checked 1 reply (by decide), start,
    meets_gdbSendBuffer checked reply noNul fits]
  exact and_iff_right (by omega)

end Replies

end Armator.Gdb
