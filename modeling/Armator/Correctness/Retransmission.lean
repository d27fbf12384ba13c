import Armator.Correctness.Framing
import Armator.Correctness.RequestReplies
import Armator.Lib.TracedPieces

/-! The packet buffer holds the last reply, which is sent again on request. -/

namespace Armator.Gdb

open CText Traced

/-- What the scanner finds, with the parts of a packet. -/
inductive Received where
  | ack
  | retransmission
  | packet (payload digits : List (BitVec 8))
  | character (c : BitVec 8)
  | echo (c : BitVec 8)

def Received.token : Received → Token
  | .ack => .ack
  | .retransmission => .retransmission
  | .packet payload digits => .packet (requestText payload digits)
  | .character c => .character c
  | .echo c => .echo c

/-- The `-` for junk that has not been reported. -/
def ParserData.pending (data : ParserData) : List (BitVec 8) :=
  if data.len = 0 then [] else text "-"

/-- The session with more bytes sent. -/
def Session.sends (gdb : Session) (more : List (BitVec 8)) : Session :=
  { gdb with sent := gdb.sent ++ more }

/-- The session in which the handler of an accepted packet starts. -/
def ParserData.accepting (data : ParserData) : Session :=
  data.gdb.sends (data.pending ++ text "+")

/-- A packet has a payload and two digits; if it is accepted, its request is well formed. -/
def Admissible (env : Env) (data : ParserData) : Received → Prop
  | .packet payload digits =>
      IsPayload payload
      ∧ AreDigits digits
      ∧ (ChecksumDigits payload digits → WellFormed env data.accepting payload)
  | _ => True

/-- An accepted `k`. -/
def Kills : Received → Prop
  | .packet payload digits => ChecksumDigits payload digits ∧ payload.head? = some (ascii 'k')
  | _ => False

/-- The run of some tokens meets admissible ones only, as long as the connection is open. -/
def Proper (env : Env) (behind : Nat → List (BitVec 8)) : Nat → ParserData → List Received → Prop
  | _, _, [] => True
  | n, data, received :: rest =>
      Admissible env data received
      ∧ ∀ after,
          (action env (behind n) received.token data).result = .ok ((), after)
          → after.closed = false
          → Proper env behind (n + 1) after rest

/-- What one token does to the session, where `last` is the most recent reply frame and `last'` the
one afterwards.
-/
def Effect (last : List (BitVec 8)) (data after : ParserData) (last' : List (BitVec 8))
    : Received → Prop
  | .ack => after.gdb = data.gdb.sends data.pending ∧ last' = last
  | .retransmission => after.gdb = data.gdb.sends (data.pending ++ last) ∧ last' = last
  | .packet payload digits =>
      if ChecksumDigits payload digits then
        if payload.head? = some (ascii 'k') then
          after.gdb = data.gdb.sends (data.pending ++ text "+") ∧ last' = last
        else
          ∃ reply,
            last' = frame reply
            ∧ after.gdb.sent = data.gdb.sent ++ (data.pending ++ text "+") ++ frame reply
      else after.gdb = data.gdb.sends (data.pending ++ text "-") ∧ last' = last
  | .character _ =>
      (after.gdb = data.gdb ∨ after.gdb = data.gdb.sends (text "-")) ∧ last' = last
  | .echo _ => after.gdb = data.gdb ∧ last' = last

/-- A token other than a packet calls nothing that works on a request. -/
def Quiet : Received → ScannerEvent → Prop
  | .packet _ _, _ => True
  | _, .analysis _ => False
  | _, .inSession _ => False
  | _, _ => True

/-- Each token of a run has its effect, up to the accepted `k` that closes the connection. -/
inductive Repeats (env : Env) (behind : Nat → List (BitVec 8))
    : Nat → List (BitVec 8) → ParserData → List Received → Prop
  | nil {n : Nat} {last : List (BitVec 8)} {data : ParserData} : Repeats env behind n last data []
  | cons {n : Nat} {last last' : List (BitVec 8)} {data after : ParserData} {received : Received}
      {rest : List Received}
      (ends : (action env (behind n) received.token data).result = .ok ((), after))
      (quiet : ∀ event ∈ (action env (behind n) received.token data).events, Quiet received event)
      (effect : Effect last data after last' received)
      (closes : after.closed = true ↔ Kills received)
      (goesOn : after.closed = false → Repeats env behind (n + 1) last' after rest)
      : Repeats env behind n last data (received :: rest)

/-- Between tokens the connection is open, the junk fits, and the buffer holds the last frame. -/
structure Holds (last : List (BitVec 8)) (data : ParserData) : Prop where
  isOpen : data.closed = false
  fits : data.len < MAX_ERROR_SIZE
  buffered : data.gdb.lastFrame = last

-----------------------------------------------------------------------------------------
-- Calls of the scanner
-----------------------------------------------------------------------------------------

section Calls

variable {allowed : ScannerEvent → Prop} {stopped : ScannerStop → Prop}
  {post : Unit → ParserData → Prop} {data : ParserData}

/-- A call that leaves the connection open. -/
theorem meets_inSession (inside : Event → Prop) {call : Act Unit}
    (lift : ∀ event, inside event → event ≠ .shutdown ∧ allowed (.inSession event))
    (met : Meets inside (fun _ => False) (fun _ t => post () { data with gdb := t }) call data.gdb)
    : Meets allowed stopped post (inSession call) data := by
  obtain ⟨⟨⟩, t, result, after⟩ := met.ends
  have noShutdown : (call data.gdb).events.contains .shutdown = false := by
    rw [List.contains_eq_mem, decide_eq_false_iff_not]
    exact fun member => (lift _ (met.1 _ member)).1 rfl
  constructor
  · intro event member
    obtain ⟨inner, logged, rfl⟩ := List.mem_map.mp member
    exact (lift inner (met.1 inner logged)).2
  · rw [inSession]
    simp only [result, noShutdown, Bool.or_false]
    exact after

theorem meets_sending (inside : Event → Prop) {call : Act Unit} (isOpen : data.closed = false)
    (lift : ∀ event, inside event → event ≠ .shutdown ∧ allowed (.inSession event))
    (met : Meets inside (fun _ => False) (fun _ t => post () { data with gdb := t }) call data.gdb)
    : Meets allowed stopped post (sending call) data := by
  rw [sending, meets_bind, meets_get, isOpen]
  exact meets_inSession inside lift met

/-- Nothing but bytes that are sent. -/
theorem meets_rioWriten {inside : Event → Prop} {next : Unit → Session → Prop} {gdb : Session}
    (more : List (BitVec 8)) (sent : next () (gdb.sends more))
    : Meets inside (fun _ => False) next (rioWriten more) gdb :=
  (meets_modify _).mpr sent

theorem meets_writeBuffer (writes : ∀ i < MAX_ERROR_SIZE, allowed (.write i)) {index : Nat}
    (fits : index < MAX_ERROR_SIZE) (c : BitVec 8)
    : Meets allowed stopped post (writeBuffer index c) data
      ↔ post () { data with buffer := fun j => if j = index then c else data.buffer j } := by
  rw [writeBuffer, meets_bind, meets_log, if_pos fits, meets_modify]
  exact and_iff_right (writes index fits)

/-- The data after pending junk has been reported. -/
def ParserData.Flushed (data after : ParserData) : Prop :=
  after.gdb = data.gdb.sends data.pending ∧ after.len = 0 ∧ after.closed = false

theorem meets_handleError (writes : ∀ i < MAX_ERROR_SIZE, allowed (.write i))
    (isOpen : data.closed = false) (fits : data.len < MAX_ERROR_SIZE)
    (next : ∀ after, data.Flushed after → post () after)
    : Meets allowed stopped post handleError data := by
  rw [handleError, meets_bind, meets_get]
  by_cases none : data.len = 0
  · have nothing : data.gdb.sends data.pending = data.gdb := by
      rw [ParserData.pending, if_pos none, Session.sends, List.append_nil]
    rw [if_neg (not_not.mpr none), meets_pure]
    exact next data ⟨nothing.symm, none, isOpen⟩
  · have dash : data.pending = text "-" := if_neg none
    rw [if_pos none]
    simp only [meets_bind]
    rw [meets_writeBuffer writes fits]
    refine meets_sending (fun _ => False) isOpen (fun _ none => none.elim) ?_
    refine meets_rioWriten (text "-") ((meets_modify _).mpr (next _ ⟨?_, rfl, isOpen⟩))
    rw [dash]

/-- Without junk there is nothing to report. -/
theorem handleError_of_none (none : data.len = 0) : (handleError data).result = .ok ((), data) := by
  rw [handleError, bind_result (x := get) (a := data) (t := data) rfl, if_neg (not_not.mpr none)]
  rfl

/-- The data with one more byte in the error buffer. -/
def ParserData.keeping (data : ParserData) (c : BitVec 8) : ParserData :=
  { data with
    buffer := fun j => if j = data.len then c else data.buffer j
    len := data.len + 1 }

/-- A byte is kept at once if there is room, and else where `handle_error` ends. -/
theorem meets_addCharacterToError (writes : ∀ i < MAX_ERROR_SIZE, allowed (.write i)) (c : BitVec 8)
    (room : data.len < 1023 → post () (data.keeping c))
    (full
      : ¬ data.len < 1023
        → Meets allowed stopped
            (fun _ next => next.len < MAX_ERROR_SIZE ∧ post () (next.keeping c)) handleError data)
    : Meets allowed stopped post (addCharacterToError c) data := by
  have size : MAX_ERROR_SIZE = 1024 := rfl
  have stores {next : ParserData} (fits : next.len < MAX_ERROR_SIZE) (kept : post () (next.keeping c))
      : Meets allowed stopped post
          (do
            let data ← get
            writeBuffer data.len c
            modify fun data => { data with len := data.len + 1 })
          next := by
    simp only [meets_bind, meets_get]
    rw [meets_writeBuffer writes fits, meets_modify]
    exact kept
  rw [addCharacterToError, meets_bind, meets_get, meets_bind]
  by_cases low : data.len < 1023
  · rw [if_neg (by omega), meets_pure]
    exact stores (by omega) (room low)
  · rw [if_pos (by omega)]
    exact (full low).mono fun _ next kept => stores kept.1 kept.2

/-- A call that closes the connection and ends. -/
theorem meets_sending_shutdown {call : Act Unit} {t : Session} (isOpen : data.closed = false)
    (reported : allowed (.inSession .shutdown))
    (ran : call data.gdb = { events := [.shutdown], result := .ok ((), t) })
    (next : ∀ after, after.gdb = t → after.closed = true → post () after)
    : Meets allowed stopped post (sending call) data := by
  rw [sending, meets_bind, meets_get, isOpen]
  constructor
  · intro event member
    have logged : ((inSession call) data).events = [.inSession .shutdown] := by
      rw [inSession, ran]
      rfl
    rw [if_neg Bool.false_ne_true, logged, List.mem_singleton] at member
    rwa [member]
  · rw [if_neg Bool.false_ne_true, inSession, ran]
    exact next _ rfl (Bool.or_true _)

end Calls

-----------------------------------------------------------------------------------------
-- Tokens
-----------------------------------------------------------------------------------------

theorem sends_sends (gdb : Session) (first second : List (BitVec 8))
    : (gdb.sends first).sends second = gdb.sends (first ++ second) := by
  rw [Session.sends, Session.sends, Session.sends, List.append_assoc]

section Tokens

variable {env : Env} {behind last : List (BitVec 8)} {data : ParserData} (holds : Holds last data)

/-- What is shown of one token: its effect, and that it closes the connection or the next one finds
the buffer in order.
-/
def Step (last : List (BitVec 8)) (data : ParserData) (received : Received) (after : ParserData)
    : Prop :=
  ∃ last',
    Effect last data after last' received
    ∧ (Kills received ∧ after.closed = true ∨ ¬ Kills received ∧ Holds last' after)

include holds

/-- Reported junk leaves the last frame where it is. -/
theorem holds_of_flushed {after : ParserData} (flushed : data.Flushed after)
    : Holds last after := by
  obtain ⟨sent, none, isOpen⟩ := flushed
  refine ⟨isOpen, none ▸ (by decide), ?_⟩
  rw [sent]
  exact holds.buffered

theorem meets_ack
    : Meets (Quiet .ack) (fun _ => False) (fun _ after => Step last data .ack after) handleError
        data := by
  refine meets_handleError (fun _ _ => trivial) holds.isOpen holds.fits fun after flushed => ?_
  exact ⟨last, ⟨flushed.1, rfl⟩, .inr ⟨id, holds_of_flushed holds flushed⟩⟩

/-- The last frame is sent again. -/
theorem meets_retransmission
    : Meets (Quiet .retransmission) (fun _ => False)
        (fun _ after => Step last data .retransmission after)
        (action env behind .retransmission) data := by
  rw [action]
  simp only [meets_bind, meets_get]
  refine meets_handleError (fun _ _ => trivial) holds.isOpen holds.fits fun flushed isFlushed => ?_
  have kept := holds_of_flushed holds isFlushed
  have transmit {inside : Event → Prop}
      : Meets inside (fun _ => False)
          (fun _ t => Step last data .retransmission { flushed with gdb := t })
          gdbTransmitPacket flushed.gdb := by
    rw [gdbTransmitPacket, meets_bind, meets_get]
    refine meets_rioWriten _ ⟨last, ⟨?_, rfl⟩,
      .inr ⟨id, kept.isOpen, kept.fits, kept.buffered⟩⟩
    rw [← sends_sends, ← isFlushed.1, ← kept.buffered]
    rfl
  split
  · exact meets_inSession (fun _ => False) (fun _ none => none.elim) transmit
  · exact meets_sending (fun _ => False) kept.isOpen (fun _ none => none.elim) transmit

/-- An accepted `k` gets no reply. -/
theorem meets_kill {payload digits : List (BitVec 8)} (areDigits : AreDigits digits)
    (kills : Kills (.packet payload digits)) {flushed : ParserData}
    (isFlushed : data.Flushed flushed)
    : Meets (Quiet (.packet payload digits)) (fun _ => False)
        (fun _ after => Step last data (.packet payload digits) after)
        (sending (gdbPacketAnalysis env (requestText payload digits ++ 0 :: behind)
          (requestText payload digits).length))
        flushed := by
  obtain ⟨valid, isKill⟩ := kills
  have kept := holds_of_flushed holds isFlushed
  obtain ⟨rest, rfl⟩ : ∃ rest, payload = ascii 'k' :: rest := List.head?_eq_some_iff.mp isKill
  have found : handler env (ascii 'k') = some fun _ _ => killRequest := rfl
  have analysed := analysisOf_requestText env (ascii 'k' :: rest) areDigits behind flushed.gdb
  rw [if_pos valid.2.2, dispatch_heldRequest found] at analysed
  refine meets_sending_shutdown kept.isOpen trivial analysed fun after same isClosed => ?_
  refine ⟨last, ?_, .inl ⟨⟨valid, isKill⟩, isClosed⟩⟩
  rw [Effect, if_pos valid, if_pos isKill, same]
  refine ⟨?_, rfl⟩
  rw [← sends_sends, ← isFlushed.1]
  rfl

/-- A packet that is accepted and is no `k` gets one reply. -/
theorem meets_request {payload digits : List (BitVec 8)} (areDigits : AreDigits digits)
    (valid : ChecksumDigits payload digits) (notKill : payload.head? ≠ some (ascii 'k'))
    (wellFormed : WellFormed env data.accepting payload) {flushed : ParserData}
    (isFlushed : data.Flushed flushed)
    : Meets (Quiet (.packet payload digits)) (fun _ => False)
        (fun _ after => Step last data (.packet payload digits) after)
        (sending (gdbPacketAnalysis env (requestText payload digits ++ 0 :: behind)
          (requestText payload digits).length))
        flushed := by
  have kept := holds_of_flushed holds isFlushed
  have accepting : flushed.gdb.acknowledged = data.accepting := by
    rw [ParserData.accepting, ← sends_sends, ← isFlushed.1]
    rfl
  have staysOpen : ∀ event, KeepsOpen event
      → event ≠ .shutdown ∧ Quiet (.packet payload digits) (.inSession event) := by
    rintro event keeps
    refine ⟨?_, trivial⟩
    rintro rfl
    exact keeps
  refine meets_sending KeepsOpen kept.isOpen staysOpen ?_
  have analysed := analysisOf_requestText env payload areDigits behind flushed.gdb
  rw [if_pos valid.2.2, accepting] at analysed
  rw [Meets, ← analysisOf, analysed]
  refine (answersOnce_dispatch wellFormed notKill digits behind).mono fun _ t once => ?_
  obtain ⟨reply, sent, buffered⟩ := once
  refine ⟨frame reply, ?_,
    .inr ⟨fun kills => notKill kills.2, kept.isOpen, kept.fits, buffered⟩⟩
  rw [Effect, if_pos valid, if_neg notKill]
  exact ⟨reply, rfl, sent⟩

/-- A packet with another checksum is refused. -/
theorem meets_refused {payload digits : List (BitVec 8)} (areDigits : AreDigits digits)
    (invalid : ¬ ChecksumDigits payload digits) {flushed : ParserData}
    (isFlushed : data.Flushed flushed)
    : Meets (Quiet (.packet payload digits)) (fun _ => False)
        (fun _ after => Step last data (.packet payload digits) after)
        (sending (gdbPacketAnalysis env (requestText payload digits ++ 0 :: behind)
          (requestText payload digits).length))
        flushed := by
  have kept := holds_of_flushed holds isFlushed
  have other : hexValue digits ≠ (checksum payload).toNat := fun same =>
    invalid ⟨areDigits.isHex, areDigits.1, same⟩
  have analysed := analysisOf_requestText env payload areDigits behind flushed.gdb
  rw [if_neg other] at analysed
  refine meets_sending (fun _ => False) kept.isOpen (fun _ none => none.elim) ?_
  rw [Meets, ← analysisOf, analysed]
  refine ⟨fun event member => absurd member List.not_mem_nil, last, ?_,
    .inr ⟨fun kills => invalid kills.1, kept.isOpen, kept.fits, kept.buffered⟩⟩
  rw [Effect, if_neg invalid]
  refine ⟨?_, rfl⟩
  rw [← sends_sends, ← isFlushed.1]
  rfl

/-- Junk is kept, after a report if the buffer is full. -/
theorem meets_character (c : BitVec 8)
    : Meets (Quiet (.character c)) (fun _ => False)
        (fun _ after => Step last data (.character c) after) (addCharacterToError c) data := by
  refine meets_addCharacterToError (fun _ _ => trivial) c (fun room => ?_) fun full => ?_
  · have low : (data.keeping c).len < MAX_ERROR_SIZE := Nat.succ_lt_succ room
    exact ⟨last, ⟨.inl rfl, rfl⟩, .inr ⟨id, holds.isOpen, low, holds.buffered⟩⟩
  · refine meets_handleError (fun _ _ => trivial) holds.isOpen holds.fits fun flushed isFlushed => ?_
    have dash : data.pending = text "-" := if_neg (by omega)
    have kept := holds_of_flushed holds isFlushed
    have low : (flushed.keeping c).len < MAX_ERROR_SIZE := by
      change flushed.len + 1 < MAX_ERROR_SIZE
      rw [isFlushed.2.1]
      decide
    exact ⟨kept.fits, last, ⟨.inr (dash ▸ isFlushed.1), rfl⟩,
      .inr ⟨id, kept.isOpen, low, kept.buffered⟩⟩

/-- One token has its effect. Witness: one case for each token. -/
theorem meets_token (received : Received) (admissible : Admissible env data received)
    : Meets (Quiet received) (fun _ => False) (fun _ after => Step last data received after)
        (action env behind received.token) data := by
  cases received with
  | ack => exact meets_ack holds
  | retransmission => exact meets_retransmission holds
  | packet payload digits =>
      obtain ⟨isPayload, areDigits, wellFormed⟩ := admissible
      rw [Received.token, action]
      simp only [meets_bind, meets_log]
      refine meets_handleError (fun _ _ => trivial) holds.isOpen holds.fits ?_
      intro flushed isFlushed
      refine ⟨trivial, ?_⟩
      by_cases valid : ChecksumDigits payload digits
      · by_cases isKill : payload.head? = some (ascii 'k')
        · exact meets_kill holds areDigits ⟨valid, isKill⟩ isFlushed
        · exact meets_request holds areDigits valid isKill (wellFormed valid) isFlushed
      · exact meets_refused holds areDigits valid isFlushed
  | character c => exact meets_character holds c
  | echo c => exact (meets_log _).mpr ⟨trivial, last, ⟨rfl, rfl⟩, .inr ⟨id, holds⟩⟩

end Tokens

/-- The buffer is in order at every token, so that each one has its effect. By induction on the
tokens.
-/
theorem repeats_of_holds {env : Env} {behind : Nat → List (BitVec 8)} (received : List Received)
    {n : Nat} {last : List (BitVec 8)} {data : ParserData} (holds : Holds last data)
    (proper : Proper env behind n data received)
    : Repeats env behind n last data received := by
  induction received generalizing n last data with
  | nil => exact .nil
  | cons first rest ih =>
      obtain ⟨admissible, later⟩ := proper
      have met : Meets (Quiet first) (fun _ => False) (fun _ after => Step last data first after)
          (action env (behind n) first.token) data :=
        meets_token holds first admissible
      obtain ⟨⟨⟩, after, result, last', effect, goesOn⟩ := met.ends
      rcases goesOn with ⟨kills, isClosed⟩ | ⟨noKill, keeps⟩
      · have notOpen : ¬ after.closed = false := by
          rw [isClosed]
          exact Bool.noConfusion
        exact .cons result met.1 effect (iff_of_true isClosed kills) fun isOpen =>
          absurd isOpen notOpen
      · have notClosed : ¬ after.closed = true := by
          rw [keeps.isOpen]
          exact Bool.noConfusion
        exact .cons result met.1 effect (iff_of_false notClosed noKill) fun isOpen =>
          ih keeps (later after result isOpen)

/-- The last reply is what is sent again. In every run of admissible tokens with which the scanner
starts, as long as no accepted `k` has closed the connection, each accepted request gets one reply
frame, and each `-` makes the server send the most recent one, without a change of anything else.
-/
theorem repeats_of_proper (env : Env) (behind : Nat → List (BitVec 8)) (arm : ArmCore)
    (packet buffer : Nat → BitVec 8) (received : List Received)
    (proper : Proper env behind 0 (gdbScannerData arm packet buffer) received)
    : Repeats env behind 0 [] (gdbScannerData arm packet buffer) received :=
  repeats_of_holds received ⟨rfl, Nat.succ_pos _, rfl⟩ proper

/-- A scanner that starts for a processor with one instruction. -/
def oneWordScanner : ParserData :=
  gdbScannerData (oneWord 4 0) (fun _ => 0) fun _ => 0

/-- The packet of a request with its checksum. -/
def Received.request (payload : List (BitVec 8)) : Received :=
  .packet payload (checksumText payload)

/-- The value of register 0 is sent again, as which `atoi` reads the `f`. -/
theorem readRegister_repeats
    : Repeats .plain (fun _ => []) 0 [] oneWordScanner
        [.request (text "pf"), .retransmission, .ack] := by
  have payload : IsPayload (text "pf") := by decide
  have wellFormed (gdb : Session) : WellFormed .plain gdb (text "pf") := by
    constructor
    case readRegister => exact fun _ => readRegister_of_isRegister .plain (by decide +kernel)
    all_goals exact fun other => absurd other (by decide)
  have proper
      : Proper .plain (fun _ => []) 0 oneWordScanner
          [.request (text "pf"), .retransmission, .ack] :=
    ⟨⟨payload, areDigits_printHex2 _, fun _ => wellFormed _⟩,
      fun _ _ _ => ⟨trivial, fun _ _ _ => ⟨trivial, fun _ _ _ => trivial⟩⟩⟩
  exact repeats_of_proper .plain (fun _ => []) (oneWord 4 0) (fun _ => 0) (fun _ => 0) _ proper

/-- The bytes sent in a run. -/
def sentBytes (received : List Received) : Except ScannerStop (List (BitVec 8)) :=
  match (actions .plain (fun _ => []) 0 (received.map Received.token) oneWordScanner).result with
  | .ok ((), data) => .ok data.gdb.sent
  | .error reason => .error reason

/-- A `-` is answered with more than the last frame if there is junk before it, and with less behind
a `k`: without any reply so far a `-` is sent, and the reply to `?` is not sent again.
-/
theorem retransmission_notExact
    : sentBytes [.character (ascii 'x')] = .ok []
      ∧ sentBytes [.character (ascii 'x'), .retransmission] = .ok (text "-")
      ∧ sentBytes [.request (text "?")] = .ok (text "+$S05#b8")
      ∧ sentBytes [.request (text "?"), .request (text "k")] = .ok (text "+$S05#b8+")
      ∧ sentBytes [.request (text "?"), .request (text "k"), .retransmission]
        = .error .closedConnection := by
  refine ⟨?_, ?_, ?_, ?_, ?_⟩ <;> rfl

end Armator.Gdb
