import Armator.Correctness.BinaryWrites
import Armator.Correctness.HandlerReplies
import Armator.Correctness.Retransmission
import Armator.Correctness.TokenStreams

/-! What is said on the connection: the tokens that the server sends for those it receives. -/

namespace Armator.Gdb

open CText Traced

-----------------------------------------------------------------------------------------
-- The protocol
-----------------------------------------------------------------------------------------

/-- What the server remembers of its side: the last reply frame, and the number of bytes in the error
buffer.
-/
structure Link where
  last : List (BitVec 8)
  junk : Nat

namespace Link

/-- The request for retransmission that is sent for junk. -/
def reported (link : Link) : List Token :=
  if link.junk = 0 then [] else [.retransmission]

def cleared (link : Link) : Link :=
  { link with junk := 0 }

/-- What is sent again; before the first reply there is nothing. -/
def resent (link : Link) : List Token :=
  if link.last = [] then [] else [.packet link.last]

/-- One more byte of junk, of which the buffer takes 1023. -/
def receiving (link : Link) : Link :=
  { link with junk := if link.junk < 1023 then link.junk + 1 else 1 }

def overflow (link : Link) : List Token :=
  if link.junk < 1023 then [] else [.retransmission]

/-- The tokens for which nothing has to be sent when no junk is pending. -/
def Ignores (link : Link) : Received → Prop
  | .ack => True
  | .echo _ => True
  | .retransmission => link.last = []
  | _ => False

end Link

/-- What is received and sent while a state is served: `serves` relates a state and the payload of an
accepted packet to the reply and the next state. A packet that is accepted is acknowledged and gets
one reply frame, any other one is asked for again, and so is junk, up to 1023 bytes at a time. Behind
a `k` nothing is sent.
-/
inductive Conversation {State : Type}
    (serves : State → List (BitVec 8) → List (BitVec 8) → State → Prop)
    : Link → State → List Received → List Token → State → Prop
  | ends {link : Link} {state : State} : Conversation serves link state [] link.reported state
  | ack {link : Link} {state final : State} {rest : List Received} {out : List Token}
      (goesOn : Conversation serves link.cleared state rest out final)
      : Conversation serves link state (.ack :: rest) (link.reported ++ out) final
  | retransmission {link : Link} {state final : State} {rest : List Received} {out : List Token}
      (goesOn : Conversation serves link.cleared state rest out final)
      : Conversation serves link state (.retransmission :: rest)
          (link.reported ++ link.resent ++ out) final
  | character {link : Link} {state final : State} {rest : List Received} {out : List Token}
      (c : BitVec 8) (goesOn : Conversation serves link.receiving state rest out final)
      : Conversation serves link state (.character c :: rest) (link.overflow ++ out) final
  | echo {link : Link} {state final : State} {rest : List Received} {out : List Token}
      (c : BitVec 8) (goesOn : Conversation serves link state rest out final)
      : Conversation serves link state (.echo c :: rest) out final
  | refused {link : Link} {state final : State} {payload digits : List (BitVec 8)}
      {rest : List Received} {out : List Token} (areDigits : AreDigits digits)
      (invalid : ¬ ChecksumDigits payload digits)
      (goesOn : Conversation serves link.cleared state rest out final)
      : Conversation serves link state (.packet payload digits :: rest)
          (link.reported ++ [.retransmission] ++ out) final
  | request {link : Link} {state next final : State} {payload digits reply : List (BitVec 8)}
      {rest : List Received} {out : List Token} (valid : ChecksumDigits payload digits)
      (notKill : payload.head? ≠ some (ascii 'k')) (served : serves state payload reply next)
      (goesOn : Conversation serves { last := frame reply, junk := 0 } next rest out final)
      : Conversation serves link state (.packet payload digits :: rest)
          (link.reported ++ [.ack, .packet (frame reply)] ++ out) final
  | kill {link : Link} {state : State} {payload digits : List (BitVec 8)} {rest : List Received}
      (valid : ChecksumDigits payload digits) (isKill : payload.head? = some (ascii 'k'))
      (quiet : ∀ received ∈ rest, link.Ignores received)
      : Conversation serves link state (.packet payload digits :: rest)
          (link.reported ++ [.ack]) state

section Protocol

variable {State Other : Type} {serves : State → List (BitVec 8) → List (BitVec 8) → State → Prop}
  {other : Other → List (BitVec 8) → List (BitVec 8) → Other → Prop}

end Protocol

-----------------------------------------------------------------------------------------
-- The server between tokens
-----------------------------------------------------------------------------------------

/-- The scanner's data when the tokens `sent` have been sent: the connection is open. -/
structure Linked (link : Link) (sent : List Token) (data : ParserData) : Prop where
  isOpen : data.closed = false
  junk : data.len = link.junk
  fits : link.junk < MAX_ERROR_SIZE
  buffered : data.gdb.lastFrame = link.last
  sent : data.gdb.sent = sent.flatMap Token.bytes

/-- A token is handled, which sends more tokens and leaves the target. -/
def Handles (env : Env) (behind : List (BitVec 8)) (received : Received) (data : ParserData)
    (link : Link) (sent : List Token)
    : Prop :=
  ∃ after, (action env behind received.token data).result = .ok ((), after)
    ∧ Linked link sent after
    ∧ after.gdb.toGdbProtocolData = data.gdb.toGdbProtocolData

-----------------------------------------------------------------------------------------
-- Calls
-----------------------------------------------------------------------------------------

section Calls

variable {data after : ParserData} {call : Act Unit}

theorem sending_closed (isClosed : data.closed = true)
    : (sending call data).result = .error .closedConnection := by
  rw [sending, bind_result (x := get) (a := data) (t := data) rfl, if_pos isClosed]
  rfl

/-- Where a call that sends returns, it closes the connection or leaves it open. -/
theorem sending_ok_iff (isOpen : data.closed = false)
    : (sending call data).result = .ok ((), after)
      ↔ ∃ t, (call data.gdb).result = .ok ((), t)
        ∧ after
          = { data with gdb := t, closed := (call data.gdb).events.contains .shutdown } := by
  have notClosed : ¬ data.closed = true := by
    rw [isOpen]
    exact Bool.false_ne_true
  rw [sending, bind_result (x := get) (a := data) (t := data) rfl, if_neg notClosed, inSession]
  cases ran : (call data.gdb).result with
  | error reason =>
      refine iff_of_false (fun ended => ?_) ?_
      · cases ended
      · rintro ⟨t, ended, -⟩
        cases ended
  | ok ended =>
      obtain ⟨⟨⟩, t⟩ := ended
      rw [isOpen, Bool.false_or]
      constructor
      · intro same
        exact ⟨t, rfl, (Prod.mk.inj (Except.ok.inj same)).2.symm⟩
      · rintro ⟨u, same, rfl⟩
        cases same
        rfl

/-- The handlers of an accepted request other than `k` leave the connection open. -/
theorem keepsOpen_dispatch (env : Env) {payload : List (BitVec 8)}
    (notKill : payload.head? ≠ some (ascii 'k')) (digits behind : List (BitVec 8))
    : EndsWithin KeepsOpen (dispatch env (heldRequest payload digits behind)) := by
  cases payload with
  | nil =>
      have unknown : handler env ((heldRequest [] digits behind).getD 1 0) = none := rfl
      rw [dispatch, unknown]
      exact (@Consists.gdbSendData True []).keepsOpen
  | cons command args =>
      have index : (heldRequest (command :: args) digits behind).getD 1 0 = command :=
        getD_heldRequest (command :: args) digits behind 0 (Nat.succ_pos _)
      have other : command ≠ ascii 'k' := fun same => notKill (congrArg some same)
      rw [dispatch, index]
      cases found : handler env command with
      | none => exact (@Consists.gdbSendData True []).keepsOpen
      | some handle => exact (Consists.handler found other _ 2).keepsOpen

/-- An accepted request other than `k` that is handled gets one reply. -/
theorem replies_of_dispatch {env : Env} {payload : List (BitVec 8)} {gdb t : Session}
    (notKill : payload.head? ≠ some (ascii 'k')) {digits behind : List (BitVec 8)}
    (ended : (dispatch env (heldRequest payload digits behind) gdb).result = .ok ((), t))
    : Replies gdb t := by
  have empty (sent : (gdbSendData [] gdb).result = .ok ((), t)) : Replies gdb t :=
    replies_gdbSendData (by decide) (by decide) sent
  cases payload with
  | nil => exact empty ended
  | cons command args =>
      have index : (heldRequest (command :: args) digits behind).getD 1 0 = command :=
        getD_heldRequest (command :: args) digits behind 0 (Nat.succ_pos _)
      have other : command ≠ ascii 'k' := fun same => notKill (congrArg some same)
      rw [dispatch, index] at ended
      cases found : handler env command with
      | none =>
          rw [found] at ended
          exact empty ended
      | some handle =>
          rw [found] at ended
          exact replies_of_handler found other ended

end Calls

-----------------------------------------------------------------------------------------
-- Tokens
-----------------------------------------------------------------------------------------

section Tokens

variable {env : Env} {behind : List (BitVec 8)} {link : Link} {sent : List Token}
  {data : ParserData} (linked : Linked link sent data)

include linked

/-- Junk is reported before anything else is sent. -/
theorem Linked.flush
    : ∃ flushed, (handleError data).result = .ok ((), flushed)
      ∧ Linked link.cleared (sent ++ link.reported) flushed
      ∧ flushed.gdb.toGdbProtocolData = data.gdb.toGdbProtocolData := by
  have fits : data.len < MAX_ERROR_SIZE := linked.junk ▸ linked.fits
  have met : Meets (fun _ => True) (fun _ => False) (fun _ after => data.Flushed after) handleError
      data :=
    meets_handleError (fun _ _ => trivial) linked.isOpen fits fun _ flushed => flushed
  obtain ⟨⟨⟩, flushed, ran, gdb, none, isOpen⟩ := met.ends
  have pending : data.pending = link.reported.flatMap Token.bytes := by
    rw [ParserData.pending, Link.reported, linked.junk]
    split <;> rfl
  refine ⟨flushed, ran, ⟨isOpen, none, Nat.succ_pos _, ?_, ?_⟩, ?_⟩
  · rw [gdb]
    exact linked.buffered
  · rw [gdb, Session.sends, pending, List.flatMap_append, linked.sent]
  · rw [gdb]
    rfl

theorem Linked.ack : Handles env behind .ack data link.cleared (sent ++ link.reported) :=
  linked.flush

/-- The last frame is sent again. -/
theorem Linked.retransmission
    : Handles env behind .retransmission data link.cleared
        (sent ++ (link.reported ++ link.resent)) := by
  obtain ⟨flushed, ran, cleared, target⟩ := linked.flush
  let after : ParserData := { flushed with gdb := flushed.gdb.sends flushed.gdb.lastFrame }
  have transmits : (gdbTransmitPacket flushed.gdb)
      = { events := [], result := .ok ((), flushed.gdb.sends flushed.gdb.lastFrame) } := rfl
  have called : (sending gdbTransmitPacket flushed).result = .ok ((), after) := by
    rw [sending_ok_iff cleared.isOpen, transmits]
    refine ⟨_, rfl, ?_⟩
    change _ = { flushed with gdb := flushed.gdb.sends flushed.gdb.lastFrame, closed := false }
    rw [← cleared.isOpen]
  have calledAlways : (inSession gdbTransmitPacket flushed).result = .ok ((), after) := by
    rw [sending, bind_result (x := get) (a := flushed) (t := flushed) rfl, cleared.isOpen] at called
    exact called
  have resent : link.resent.flatMap Token.bytes = flushed.gdb.lastFrame := by
    rw [cleared.buffered]
    change link.resent.flatMap Token.bytes = link.last
    rw [Link.resent]
    split
    · rename_i none
      rw [none]
      rfl
    · exact List.flatMap_singleton _ _
  refine ⟨after, ?_, ⟨cleared.isOpen, cleared.junk, cleared.fits, cleared.buffered, ?_⟩, target⟩
  · rw [Received.token, action, bind_result ran,
      bind_result (x := get) (a := flushed) (t := flushed) rfl]
    split
    · exact calledAlways
    · exact called
  · rw [← List.append_assoc, List.flatMap_append, resent, ← cleared.sent]
    rfl

theorem Linked.echo (c : BitVec 8) : Handles env behind (.echo c) data link sent :=
  ⟨data, rfl, linked, rfl⟩

/-- A byte of junk is kept, after a report if the buffer is full. -/
theorem Linked.character (c : BitVec 8)
    : Handles env behind (.character c) data link.receiving (sent ++ link.overflow) := by
  have junk := linked.junk
  have met : Meets (fun _ => True) (fun _ => False)
      (fun _ after => Linked link.receiving (sent ++ link.overflow) after
        ∧ after.gdb.toGdbProtocolData = data.gdb.toGdbProtocolData)
      (addCharacterToError c) data := by
    refine meets_addCharacterToError (fun _ _ => trivial) c (fun room => ?_) fun full => ?_
    · have low : link.junk < 1023 := junk ▸ room
      rw [Link.receiving, Link.overflow, if_pos low, if_pos low, List.append_nil]
      exact ⟨⟨linked.isOpen, congrArg (· + 1) junk, Nat.succ_lt_succ low, linked.buffered,
        linked.sent⟩, rfl⟩
    · have high : ¬ link.junk < 1023 := junk ▸ full
      have some : link.junk ≠ 0 := by omega
      obtain ⟨flushed, ran, cleared, target⟩ := linked.flush
      rw [Link.reported, if_neg some] at cleared
      rw [Link.receiving, Link.overflow, if_neg high, if_neg high]
      refine ⟨fun _ _ => trivial, ?_⟩
      rw [ran]
      exact ⟨cleared.junk ▸ cleared.fits,
        ⟨cleared.isOpen, congrArg (· + 1) cleared.junk, (by decide : 1 < 1024),
        cleared.buffered, cleared.sent⟩, target⟩
  obtain ⟨⟨⟩, after, ran, kept, target⟩ := met.ends
  exact ⟨after, ran, kept, target⟩

/-- A packet is analysed behind reported junk. -/
theorem Linked.packet (payload digits : List (BitVec 8))
    : ∃ flushed, Linked link.cleared (sent ++ link.reported) flushed
      ∧ flushed.gdb.toGdbProtocolData = data.gdb.toGdbProtocolData
      ∧ (action env behind (Received.packet payload digits).token data).result
        = (sending (gdbPacketAnalysis env (requestText payload digits ++ 0 :: behind)
            (requestText payload digits).length) flushed).result := by
  obtain ⟨flushed, ran, cleared, target⟩ := linked.flush
  refine ⟨flushed, cleared, target, ?_⟩
  rw [Received.token, action, bind_result ran]
  exact bind_result rfl

theorem Linked.refused {payload digits : List (BitVec 8)} (areDigits : AreDigits digits)
    (invalid : ¬ ChecksumDigits payload digits)
    : Handles env behind (.packet payload digits) data link.cleared
        (sent ++ (link.reported ++ [.retransmission])) := by
  obtain ⟨flushed, cleared, target, ran⟩ := linked.packet payload digits
  have other : hexValue digits ≠ (checksum payload).toNat := fun same =>
    invalid ⟨areDigits.isHex, areDigits.1, same⟩
  have analysed := analysisOf_requestText env payload areDigits behind flushed.gdb
  rw [if_neg other, analysisOf] at analysed
  let after : ParserData := { flushed with gdb := flushed.gdb.rejected }
  refine ⟨after, ?_, ⟨cleared.isOpen, cleared.junk, cleared.fits, cleared.buffered, ?_⟩, target⟩
  · rw [ran, sending_ok_iff cleared.isOpen, analysed]
    refine ⟨_, rfl, ?_⟩
    change _ = { flushed with gdb := flushed.gdb.rejected, closed := false }
    rw [← cleared.isOpen]
  · rw [← List.append_assoc, List.flatMap_append, ← cleared.sent]
    rfl

/-- An accepted packet is acknowledged and dispatched. -/
theorem Linked.accepted {payload digits : List (BitVec 8)} (valid : ChecksumDigits payload digits)
    : ∃ flushed, Linked link.cleared (sent ++ link.reported) flushed
      ∧ flushed.gdb.toGdbProtocolData = data.gdb.toGdbProtocolData
      ∧ ∀ after,
          (action env behind (Received.packet payload digits).token data).result = .ok ((), after)
          ↔ ∃ t,
            (dispatch env (heldRequest payload digits behind) flushed.gdb.acknowledged).result
              = .ok ((), t)
            ∧ after = { flushed with
                gdb := t
                closed := (dispatch env (heldRequest payload digits behind)
                  flushed.gdb.acknowledged).events.contains .shutdown } := by
  obtain ⟨flushed, cleared, target, ran⟩ := linked.packet payload digits
  have areDigits : AreDigits digits := ⟨valid.2.1, valid.1.2⟩
  have analysed := analysisOf_requestText env payload areDigits behind flushed.gdb
  rw [if_pos valid.2.2, analysisOf] at analysed
  refine ⟨flushed, cleared, target, fun after => ?_⟩
  rw [ran, sending_ok_iff cleared.isOpen, analysed]

end Tokens

-----------------------------------------------------------------------------------------
-- Runs
-----------------------------------------------------------------------------------------

/-- The tokens are handled up to the end of the input. -/
def Closes (env : Env) (behind : Nat → List (BitVec 8)) (n : Nat) (received : List Received)
    (data final : ParserData)
    : Prop :=
  ((actions env behind n (received.map Received.token) >>= fun _ => handleError) data).result
    = .ok ((), final)

section Runs

variable {env : Env} {behind : Nat → List (BitVec 8)} {n : Nat} {data after final : ParserData}
  {received : Received} {rest : List Received}

theorem closes_nil_iff
    : Closes env behind n [] data final ↔ (handleError data).result = .ok ((), final) := by
  rw [Closes, List.map_nil, actions, pure_bind]

theorem closes_cons_iff
    : Closes env behind n (received :: rest) data final
      ↔ ∃ after, (action env (behind n) received.token data).result = .ok ((), after)
        ∧ Closes env behind (n + 1) rest after final := by
  rw [Closes, List.map_cons, actions, bind_assoc]
  constructor
  · intro ended
    obtain ⟨⟨⟩, after, ran, goesOn⟩ := of_bind_result ended
    exact ⟨after, ran, goesOn⟩
  · rintro ⟨after, ran, goesOn⟩
    rw [bind_result ran]
    exact goesOn

theorem closes_cons_of_ran
    (ran : (action env (behind n) received.token data).result = .ok ((), after))
    : Closes env behind n (received :: rest) data final
      ↔ Closes env behind (n + 1) rest after final := by
  rw [closes_cons_iff]
  constructor
  · rintro ⟨other, same, goesOn⟩
    rw [ran] at same
    cases same
    exact goesOn
  · exact fun goesOn => ⟨after, ran, goesOn⟩

-----------------------------------------------------------------------------------------
-- Behind a kill
-----------------------------------------------------------------------------------------

/-- On a closed connection junk cannot be reported. -/
theorem handleError_of_closed (isClosed : data.closed = true) (some : data.len ≠ 0)
    (fits : data.len < MAX_ERROR_SIZE)
    : (handleError data).result = .error .closedConnection := by
  let written : ParserData :=
    { data with buffer := fun j => if j = data.len then 0 else data.buffer j }
  have wrote : (writeBuffer data.len 0 data).result = .ok ((), written) := by
    rw [writeBuffer, if_pos fits]
    rfl
  have stops : (sending gdbRequireRetransmission written).result = .error .closedConnection :=
    sending_closed isClosed
  rw [handleError, bind_result (x := get) (a := data) (t := data) rfl, if_pos some,
    bind_result wrote, bind_result_error stops]

theorem addCharacterToError_of_room (room : data.len < 1023) (c : BitVec 8)
    : (addCharacterToError c data).result = .ok ((), data.keeping c) := by
  have size : MAX_ERROR_SIZE = 1024 := rfl
  have notFull : ¬ data.len > MAX_ERROR_SIZE - 2 := by omega
  have fits : data.len < MAX_ERROR_SIZE := by omega
  rw [addCharacterToError, bind_result (x := get) (a := data) (t := data) rfl, if_neg notFull]
  change ((writeBuffer data.len c >>= fun _ => _) data).result = _
  rw [writeBuffer, if_pos fits]
  rfl

/-- So the scanner does not return when there is any, by induction on the tokens. -/
theorem not_closes_of_junk (isClosed : data.closed = true) (some : data.len ≠ 0)
    (fits : data.len < MAX_ERROR_SIZE) (all : List Received)
    : ¬ Closes env behind n all data final := by
  induction all generalizing n data with
  | nil =>
      rw [closes_nil_iff, handleError_of_closed isClosed some fits]
      rintro ⟨⟩
  | cons received rest ih =>
      have stopped := handleError_of_closed isClosed some fits
      rw [closes_cons_iff]
      rintro ⟨after, ran, goesOn⟩
      cases received with
      | ack =>
          rw [Received.token, action, stopped] at ran
          cases ran
      | retransmission =>
          rw [Received.token, action, bind_result_error stopped] at ran
          cases ran
      | packet payload digits =>
          rw [Received.token, action, bind_result_error stopped] at ran
          cases ran
      | character c =>
          rw [Received.token, action] at ran
          by_cases room : data.len < 1023
          · rw [addCharacterToError_of_room room] at ran
            cases ran
            have kept : (data.keeping c).closed = true := isClosed
            exact ih kept (Nat.succ_ne_zero data.len) (Nat.succ_lt_succ room) goesOn
          · have size : MAX_ERROR_SIZE = 1024 := rfl
            have full : data.len > MAX_ERROR_SIZE - 2 := by omega
            rw [addCharacterToError, bind_result (x := get) (a := data) (t := data) rfl, if_pos full,
              bind_result_error stopped] at ran
            cases ran
      | echo c =>
          cases ran
          exact ih isClosed some fits goesOn

/-- Behind a `k` the scanner returns only if nothing has to be sent. -/
theorem closes_of_closed {link : Link} (isClosed : data.closed = true) (none : data.len = 0)
    (buffered : data.gdb.lastFrame = link.last) (all : List Received)
    : Closes env behind n all data final
      ↔ final = data ∧ ∀ received ∈ all, link.Ignores received := by
  have skipped := handleError_of_none none
  induction all generalizing n with
  | nil =>
      rw [closes_nil_iff, skipped]
      constructor
      · rintro ⟨⟩
        exact ⟨rfl, fun _ member => absurd member List.not_mem_nil⟩
      · rintro ⟨rfl, -⟩
        rfl
  | cons received rest ih =>
      have ignores (ran : (action env (behind n) received.token data).result = .ok ((), data))
          (ignored : link.Ignores received)
          : Closes env behind n (received :: rest) data final
            ↔ final = data ∧ ∀ other ∈ received :: rest, link.Ignores other := by
        rw [closes_cons_of_ran ran, List.forall_mem_cons]
        exact ih.trans (and_congr_right fun _ => (and_iff_right ignored).symm)
      have refuses (fails : ¬ Closes env behind n (received :: rest) data final)
          (sends : ¬ link.Ignores received)
          : Closes env behind n (received :: rest) data final
            ↔ final = data ∧ ∀ other ∈ received :: rest, link.Ignores other :=
        iff_of_false fails fun all => sends (all.2 received List.mem_cons_self)
      cases received with
      | ack => exact ignores skipped trivial
      | retransmission =>
          have transmits
              : (action env (behind n) Received.retransmission.token data).result
                = ((if data.gdb.len = 0 then inSession gdbTransmitPacket
                    else sending gdbTransmitPacket) data).result := by
            rw [Received.token, action, bind_result skipped]
            rfl
          by_cases empty : data.gdb.len = 0
          · have nothing : data.gdb.lastFrame = [] := by
              rw [Session.lastFrame, empty]
              rfl
            have unchanged : data.gdb.sends data.gdb.lastFrame = data.gdb := by
              rw [nothing, Session.sends, List.append_nil]
            refine ignores ?_ (buffered.symm.trans nothing)
            rw [transmits, if_pos empty, inSession]
            change Except.ok ((), { data with
              gdb := data.gdb.sends data.gdb.lastFrame, closed := data.closed || false }) = _
            rw [unchanged, Bool.or_false]
          · refine refuses (fun closes => ?_) fun none => empty ?_
            · obtain ⟨after, ran, -⟩ := closes_cons_iff.mp closes
              rw [transmits, if_neg empty, sending_closed isClosed] at ran
              cases ran
            · have length := congrArg List.length (buffered.trans none)
              rwa [Session.lastFrame, List.length_map, List.length_range] at length
      | packet payload digits =>
          refine refuses (fun closes => ?_) id
          obtain ⟨after, ran, -⟩ := closes_cons_iff.mp closes
          rw [Received.token, action, bind_result skipped,
            bind_result (x := log _) (a := ()) (t := data) rfl, sending_closed isClosed] at ran
          cases ran
      | character c =>
          have ran : (action env (behind n) (Received.character c).token data).result
              = .ok ((), data.keeping c) :=
            addCharacterToError_of_room (by omega) c
          refine refuses (fun closes => ?_) id
          rw [closes_cons_of_ran ran] at closes
          have kept : (data.keeping c).closed = true := isClosed
          have fits : (data.keeping c).len < MAX_ERROR_SIZE := by
            change data.len + 1 < 1024
            omega
          exact not_closes_of_junk kept (Nat.succ_ne_zero data.len) fits rest closes
      | echo c => exact ignores rfl trivial

-----------------------------------------------------------------------------------------
-- Runs and conversations
-----------------------------------------------------------------------------------------

/-- The packets of the list are packets. -/
def Received.IsWhole : Received → Prop
  | .packet payload digits => IsPayload payload ∧ AreDigits digits
  | _ => True

/-- A session with this target, in which the request comes with some digits of its checksum and some
older bytes behind it, is answered in this way.
-/
def HandledAs (env : Env) (before : GdbProtocolData) (payload reply : List (BitVec 8))
    (after : GdbProtocolData)
    : Prop :=
  IsReply reply
  ∧ ∃ (gdb : Session) (digits behind : List (BitVec 8)),
    gdb.toGdbProtocolData = before
    ∧ ChecksumDigits payload digits
    ∧ (dispatch env (heldRequest payload digits behind) gdb).result
      = .ok ((), gdb.answering after reply)

/-- The request is answered in this way in all sessions. -/
def Dispatches (env : Env) (before : GdbProtocolData) (payload reply : List (BitVec 8))
    (after : GdbProtocolData)
    : Prop :=
  IsReply reply
  ∧ ∀ gdb : Session,
    gdb.toGdbProtocolData = before
    → Answers env gdb payload reply (gdb.acknowledged.answering after reply)

theorem Dispatches.ends {before after : GdbProtocolData} {payload reply : List (BitVec 8)}
    (dispatches : Dispatches env before payload reply after) {gdb : Session}
    (here : gdb.toGdbProtocolData = before) {digits : List (BitVec 8)}
    (valid : ChecksumDigits payload digits) (behind : List (BitVec 8))
    : (dispatch env (heldRequest payload digits behind) gdb.acknowledged).result
      = .ok ((), gdb.acknowledged.answering after reply) := by
  have answered := (dispatches.2 gdb here).2 digits behind valid
  rwa [gdbPacketAnalysis_eq env valid.1 valid.2.1, if_pos valid.2.2] at answered

/-- The acknowledgement and the reply. -/
theorem Linked.answering {link : Link} {sent : List Token}
    (linked : Linked link.cleared sent data) (next : GdbProtocolData) (reply : List (BitVec 8))
    : Linked { last := frame reply, junk := 0 } (sent ++ [.ack, .packet (frame reply)])
        { data with gdb := data.gdb.acknowledged.answering next reply, closed := false } := by
  refine ⟨rfl, linked.junk, Nat.succ_pos _, lastFrame_replied _ reply, ?_⟩
  have bytes : [Token.ack, .packet (frame reply)].flatMap Token.bytes = text "+" ++ frame reply := by
    simp [Token.bytes]
  rw [List.flatMap_append, bytes, ← linked.sent, ← List.append_assoc]
  rfl

/-- A request that is handled leaves the connection open. -/
theorem contains_shutdown_dispatch {payload digits behind : List (BitVec 8)} {gdb t : Session}
    (notKill : payload.head? ≠ some (ascii 'k'))
    (ended : (dispatch env (heldRequest payload digits behind) gdb).result = .ok ((), t))
    : (dispatch env (heldRequest payload digits behind) gdb).events.contains .shutdown = false := by
  rw [List.contains_eq_mem, decide_eq_false_iff_not]
  exact fun member => keepsOpen_dispatch env notKill digits behind gdb () t ended _ member

theorem dispatch_kill {payload : List (BitVec 8)} (isKill : payload.head? = some (ascii 'k'))
    (digits behind : List (BitVec 8)) (gdb : Session)
    : dispatch env (heldRequest payload digits behind) gdb
      = { events := [.shutdown], result := .ok ((), gdb) } := by
  obtain ⟨rest, rfl⟩ := List.head?_eq_some_iff.mp isKill
  have found : handler env (ascii 'k') = some fun _ _ => killRequest := rfl
  rw [dispatch_heldRequest found]
  rfl

/-- The data behind an accepted `k`. -/
def ParserData.killed (data : ParserData) : ParserData :=
  { data with gdb := data.gdb.acknowledged, closed := true }

theorem Linked.closes_killed {link : Link} {sent : List Token}
    (linked : Linked link.cleared sent data) (all : List Received)
    : Closes env behind n all data.killed final
      ↔ final = data.killed ∧ ∀ received ∈ all, link.Ignores received := by
  have isClosed : data.killed.closed = true := rfl
  have none : data.killed.len = 0 := linked.junk
  have buffered : data.killed.gdb.lastFrame = link.last := linked.buffered
  exact closes_of_closed isClosed none buffered all

/-- Every run of the scanner is a conversation, by induction on the tokens. -/
theorem conversation_of_closes {link : Link} {sent : List Token} (linked : Linked link sent data)
    (all : List Received) (whole : ∀ received ∈ all, received.IsWhole)
    (closes : Closes env behind n all data final)
    : ∃ out, Conversation (HandledAs env) link data.gdb.toGdbProtocolData all out
        final.gdb.toGdbProtocolData
      ∧ final.gdb.sent = (sent ++ out).flatMap Token.bytes := by
  induction all generalizing n data link sent with
  | nil =>
      obtain ⟨flushed, ran, cleared, target⟩ := linked.flush
      rw [closes_nil_iff, ran] at closes
      cases closes
      exact ⟨link.reported, target ▸ .ends, cleared.sent⟩
  | cons received rest ih =>
      have later := fun other member => whole other (List.mem_cons_of_mem received member)
      have passes {next : Link} {more : List Token}
          (handles : Handles env (behind n) received data next (sent ++ more))
          : ∃ out, Conversation (HandledAs env) next data.gdb.toGdbProtocolData rest out
              final.gdb.toGdbProtocolData
            ∧ final.gdb.sent = (sent ++ (more ++ out)).flatMap Token.bytes := by
        obtain ⟨after, ran, linked, target⟩ := handles
        obtain ⟨out, goesOn, sent⟩ := ih linked later ((closes_cons_of_ran ran).mp closes)
        rw [target] at goesOn
        exact ⟨out, goesOn, by rw [sent, List.append_assoc]⟩
      cases received with
      | ack =>
          obtain ⟨out, goesOn, sent⟩ := passes linked.ack
          exact ⟨_, .ack goesOn, sent⟩
      | retransmission =>
          obtain ⟨out, goesOn, sent⟩ := passes linked.retransmission
          exact ⟨_, .retransmission goesOn, sent⟩
      | character c =>
          obtain ⟨out, goesOn, sent⟩ := passes (linked.character c)
          exact ⟨_, .character c goesOn, sent⟩
      | echo c =>
          have silent : Handles env (behind n) (.echo c) data link (sent ++ []) := by
            rw [List.append_nil]
            exact linked.echo c
          obtain ⟨out, goesOn, sent⟩ := passes silent
          exact ⟨_, .echo c goesOn, sent⟩
      | packet payload digits =>
          obtain ⟨-, areDigits⟩ := whole _ List.mem_cons_self
          by_cases valid : ChecksumDigits payload digits
          · obtain ⟨after, ran, goesOn⟩ := closes_cons_iff.mp closes
            obtain ⟨flushed, cleared, target, accepts⟩ := linked.accepted valid
            obtain ⟨t, ended, rfl⟩ := (accepts after).mp ran
            by_cases isKill : payload.head? = some (ascii 'k')
            · rw [dispatch_kill isKill] at ended goesOn
              cases ended
              obtain ⟨rfl, quiet⟩ := (cleared.closes_killed rest).mp goesOn
              have same : flushed.killed.gdb.toGdbProtocolData = data.gdb.toGdbProtocolData := target
              refine ⟨link.reported ++ [.ack], ?_, ?_⟩
              · rw [same]
                exact .kill valid isKill quiet
              · rw [← List.append_assoc, List.flatMap_append, ← cleared.sent]
                rfl
            · rw [contains_shutdown_dispatch isKill ended] at goesOn
              obtain ⟨next, reply, isReply, rfl⟩ := replies_of_dispatch isKill ended
              obtain ⟨out, conversation, sent⟩ := ih (cleared.answering next reply) later goesOn
              have handled : HandledAs env data.gdb.toGdbProtocolData payload reply next :=
                ⟨isReply, flushed.gdb.acknowledged, digits, behind n, target, valid, ended⟩
              exact ⟨_, .request valid isKill handled conversation, by
                rw [sent, List.append_assoc, List.append_assoc, List.append_assoc]⟩
          · obtain ⟨out, goesOn, sent⟩ := passes (linked.refused areDigits valid)
            exact ⟨_, .refused areDigits valid goesOn, sent⟩

/-- Every conversation in which the requests are handled as it says is a run of the scanner. By
induction on the conversation.
-/
theorem closes_of_conversation {link : Link} {sent : List Token} (linked : Linked link sent data)
    {state target : GdbProtocolData} (here : data.gdb.toGdbProtocolData = state)
    {all : List Received} {out : List Token}
    (conversation : Conversation (Dispatches env) link state all out target)
    : ∃ final, Closes env behind n all data final
      ∧ final.gdb.toGdbProtocolData = target
      ∧ final.gdb.sent = (sent ++ out).flatMap Token.bytes := by
  induction conversation generalizing n data sent with
  | ends =>
      obtain ⟨flushed, ran, cleared, same⟩ := linked.flush
      exact ⟨flushed, closes_nil_iff.mpr ran, same.trans here, cleared.sent⟩
  | ack _ ih =>
      obtain ⟨after, ran, next, same⟩ := linked.ack
      obtain ⟨final, closes, reached, sent⟩ := ih next (same.trans here)
      exact ⟨final, (closes_cons_of_ran ran).mpr closes, reached, by rw [sent, List.append_assoc]⟩
  | retransmission _ ih =>
      obtain ⟨after, ran, next, same⟩ := linked.retransmission
      obtain ⟨final, closes, reached, sent⟩ := ih next (same.trans here)
      exact ⟨final, (closes_cons_of_ran ran).mpr closes, reached, by rw [sent, List.append_assoc]⟩
  | character c _ ih =>
      obtain ⟨after, ran, next, same⟩ := linked.character c
      obtain ⟨final, closes, reached, sent⟩ := ih next (same.trans here)
      exact ⟨final, (closes_cons_of_ran ran).mpr closes, reached, by rw [sent, List.append_assoc]⟩
  | echo c _ ih =>
      obtain ⟨after, ran, next, same⟩ := linked.echo c
      obtain ⟨final, closes, reached, sent⟩ := ih next (same.trans here)
      exact ⟨final, (closes_cons_of_ran ran).mpr closes, reached, sent⟩
  | refused areDigits invalid _ ih =>
      obtain ⟨after, ran, next, same⟩ := linked.refused areDigits invalid
      obtain ⟨final, closes, reached, sent⟩ := ih next (same.trans here)
      exact ⟨final, (closes_cons_of_ran ran).mpr closes, reached, by rw [sent, List.append_assoc]⟩
  | @request _ _ next _ payload digits reply _ _ valid notKill served _ ih =>
      obtain ⟨flushed, cleared, same, accepts⟩ := linked.accepted valid
      have ended := served.ends (same.trans here) valid (behind n)
      have ran := (accepts _).mpr ⟨_, ended, rfl⟩
      rw [contains_shutdown_dispatch notKill ended] at ran
      obtain ⟨final, closes, reached, sent⟩ := ih (cleared.answering next reply) rfl
      exact ⟨final, (closes_cons_of_ran ran).mpr closes, reached, by
        rw [sent, List.append_assoc, List.append_assoc, List.append_assoc]⟩
  | @kill link _ payload digits rest valid isKill quiet =>
      obtain ⟨flushed, cleared, same, accepts⟩ := linked.accepted valid
      have ended : (dispatch env (heldRequest payload digits (behind n)) flushed.gdb.acknowledged)
          = { events := [.shutdown], result := .ok ((), flushed.gdb.acknowledged) } :=
        dispatch_kill isKill _ _ _
      have ran : (action env (behind n) (Received.packet payload digits).token data).result
          = .ok ((), flushed.killed) := by
        rw [accepts, ended]
        exact ⟨_, rfl, rfl⟩
      refine ⟨flushed.killed, (closes_cons_of_ran ran).mpr ?_, same.trans here, ?_⟩
      · exact (cleared.closes_killed rest).mpr ⟨rfl, quiet⟩
      · rw [← List.append_assoc, List.flatMap_append, ← cleared.sent]
        rfl

end Runs

-----------------------------------------------------------------------------------------
-- Inputs and outputs
-----------------------------------------------------------------------------------------

/-- What is sent is a sequence of tokens for the other side. -/
theorem Conversation.plain {State : Type}
    {serves : State → List (BitVec 8) → List (BitVec 8) → State → Prop}
    (clean : ∀ {state payload reply next}, serves state payload reply next → IsReply reply)
    {link : Link} (framed : link.last = [] ∨ IsFrame link.last) {state final : State}
    {received : List Received} {out : List Token}
    (conversation : Conversation serves link state received out final)
    : ∀ token ∈ out, token.IsPlain := by
  have ack : Token.IsPlain .ack := ⟨ascii '+', by decide, rfl⟩
  have retransmission : Token.IsPlain .retransmission := ⟨ascii '-', by decide, rfl⟩
  have reported (link : Link) : ∀ token ∈ link.reported, token.IsPlain := by
    rw [Link.reported]
    split
    · exact fun _ member => absurd member List.not_mem_nil
    · exact List.forall_mem_singleton.mpr retransmission
  induction conversation with
  | ends => exact reported _
  | ack _ ih => exact List.forall_mem_append.mpr ⟨reported _, ih framed⟩
  | @retransmission link _ _ _ _ _ ih =>
      have resent : ∀ token ∈ link.resent, token.IsPlain := by
        rw [Link.resent]
        split
        · exact fun _ member => absurd member List.not_mem_nil
        · next some => exact List.forall_mem_singleton.mpr (framed.resolve_left some)
      exact List.forall_mem_append.mpr
        ⟨List.forall_mem_append.mpr ⟨reported _, resent⟩, ih framed⟩
  | @character link _ _ _ _ c _ ih =>
      have overflow : ∀ token ∈ link.overflow, token.IsPlain := by
        rw [Link.overflow]
        split
        · exact fun _ member => absurd member List.not_mem_nil
        · exact List.forall_mem_singleton.mpr retransmission
      exact List.forall_mem_append.mpr ⟨overflow, ih framed⟩
  | echo c _ ih => exact ih framed
  | refused _ _ _ ih =>
      exact List.forall_mem_append.mpr
        ⟨List.forall_mem_append.mpr ⟨reported _, List.forall_mem_singleton.mpr retransmission⟩,
          ih framed⟩
  | @request _ _ _ _ _ _ reply _ _ _ _ served _ ih =>
      have isFrame : IsFrame (frame reply) :=
        ⟨reply, _, rfl, (clean served).2, areDigits_printHex2 _⟩
      exact List.forall_mem_append.mpr
        ⟨List.forall_mem_append.mpr ⟨reported _, List.forall_mem_cons.mpr ⟨ack,
          List.forall_mem_singleton.mpr isFrame⟩⟩, ih (.inr isFrame)⟩
  | kill _ _ _ =>
      exact List.forall_mem_append.mpr ⟨reported _, List.forall_mem_singleton.mpr ack⟩

/-- Frames have the parts of packets. -/
theorem exists_received {found : List Token}
    (frames : ∀ yytext, .packet yytext ∈ found → IsFrame yytext)
    : ∃ received : List Received, received.map Received.token = found
      ∧ ∀ part ∈ received, part.IsWhole := by
  induction found with
  | nil => exact ⟨[], rfl, fun _ member => absurd member List.not_mem_nil⟩
  | cons token rest ih =>
      obtain ⟨received, same, whole⟩ := ih fun yytext member =>
        frames yytext (List.mem_cons_of_mem token member)
      have first : ∃ part : Received, part.token = token ∧ part.IsWhole := by
        cases token with
        | ack => exact ⟨.ack, rfl, trivial⟩
        | retransmission => exact ⟨.retransmission, rfl, trivial⟩
        | character c => exact ⟨.character c, rfl, trivial⟩
        | echo c => exact ⟨.echo c, rfl, trivial⟩
        | packet yytext =>
            obtain ⟨payload, digits, rfl, parts⟩ := frames yytext List.mem_cons_self
            exact ⟨.packet payload digits, rfl, parts⟩
      obtain ⟨part, isFirst, isWhole⟩ := first
      exact ⟨part :: received, by rw [List.map_cons, isFirst, same],
        List.forall_mem_cons.mpr ⟨isWhole, whole⟩⟩

/-- The scanner starts with an open connection and nothing sent. -/
theorem linked_gdbScannerData (arm : ArmCore) (packet buffer : Nat → BitVec 8)
    : Linked { last := [], junk := 0 } [] (gdbScannerData arm packet buffer) :=
  ⟨rfl, rfl, Nat.succ_pos _, rfl, rfl⟩

/-- Every conversation in which the requests are answered as it says is one of the server. -/
theorem yylex_of_conversation {env : Env} {behind : Nat → List (BitVec 8)} {arm : ArmCore}
    (packet buffer : Nat → BitVec 8) {input : List (BitVec 8)} {received : List Received}
    (found : scanned input = received.map Received.token) {out : List Token}
    {target : GdbProtocolData}
    (conversation
      : Conversation (Dispatches env) { last := [], junk := 0 } { arm, targetException := 0 }
          received out target)
    : ∃ final,
        (yylex env behind input (gdbScannerData arm packet buffer)).result = .ok ((), final)
        ∧ final.gdb.toGdbProtocolData = target
        ∧ scanned final.gdb.sent = out := by
  obtain ⟨final, closes, reached, sent⟩ :=
    closes_of_conversation (linked_gdbScannerData arm packet buffer) rfl conversation
  refine ⟨final, ?_, reached, ?_⟩
  · rw [yylex, found]
    exact closes
  · rw [sent, List.nil_append]
    exact scanned_bytes (conversation.plain And.left (.inl rfl))

/-- Whatever comes in, the server keeps to the protocol: if it returns, then what it has sent is read
by the other side as the tokens of a conversation in which all requests are answered.
-/
theorem yylex_conversation (env : Env) (behind : Nat → List (BitVec 8)) (arm : ArmCore)
    (packet buffer : Nat → BitVec 8) (input : List (BitVec 8)) {final : ParserData}
    (returns
      : (yylex env behind input (gdbScannerData arm packet buffer)).result = .ok ((), final))
    : ∃ received out,
        received.map Received.token = scanned input
        ∧ Conversation (HandledAs env) { last := [], junk := 0 } { arm, targetException := 0 }
            received out final.gdb.toGdbProtocolData
        ∧ scanned final.gdb.sent = out := by
  obtain ⟨received, found, whole⟩ :=
    exists_received fun yytext (member : .packet yytext ∈ scanned input) => isFrame_of_scanned member
  have closes : Closes env behind 0 received (gdbScannerData arm packet buffer) final := by
    rw [Closes, found]
    exact returns
  obtain ⟨out, conversation, sent⟩ :=
    conversation_of_closes (linked_gdbScannerData arm packet buffer) received whole closes
  refine ⟨received, out, found, conversation, ?_⟩
  rw [sent, List.nil_append]
  exact scanned_bytes (conversation.plain And.left (.inl rfl))

/-- A question for the stop reason, and one for its answer again. -/
theorem stopReason_conversation
    : ∃ (final : ParserData) (received : List Received) (out : List Token),
        received.map Received.token = scanned (frame (text "?") ++ text "-")
        ∧ Conversation (HandledAs .plain) { last := [], junk := 0 }
            { arm := oneWord 4 0, targetException := 0 } received out final.gdb.toGdbProtocolData
        ∧ scanned final.gdb.sent = out := by
  let tokens : List Token := [.packet (frame (text "?")), .retransmission]
  have plain : ∀ token ∈ tokens, token.IsPlain := by
    have isFrame : IsFrame (frame (text "?")) :=
      ⟨text "?", _, rfl, by decide, areDigits_printHex2 _⟩
    have dash : Token.IsPlain .retransmission := ⟨ascii '-', by decide, rfl⟩
    exact List.forall_mem_cons.mpr ⟨isFrame, List.forall_mem_singleton.mpr dash⟩
  have bytes : tokens.flatMap Token.bytes = frame (text "?") ++ text "-" := by
    simp [tokens, Token.bytes]
  have found : scanned (frame (text "?") ++ text "-") = tokens := by
    rw [← bytes, scanned_bytes plain]
  have returns
      : ∃ final, (yylex .plain (fun _ => []) (frame (text "?") ++ text "-") oneWordScanner).result
        = .ok ((), final) := by
    rw [yylex, found]
    exact ⟨_, rfl⟩
  obtain ⟨final, returns⟩ := returns
  exact ⟨final, yylex_conversation .plain (fun _ => []) (oneWord 4 0) (fun _ => 0) (fun _ => 0) _
    returns⟩

end Armator.Gdb
