import Armator.Correctness.Conversations

/-! Which frames of its input the scanner hands over: all of them, or those up to the point where
the run stops.
-/

namespace Armator.Gdb

open CText Traced

/-- The texts for which `gdb_packet_analysis` is called. -/
def calls {α : Type} (ran : Ran ScannerEvent ScannerStop ParserData α) : List (List (BitVec 8)) :=
  ran.events.filterMap ScannerEvent.analysis?

/-- The texts of the packets. -/
def packets (found : List Token) : List (List (BitVec 8)) :=
  found.filterMap Token.packet?

/-- The actions of the tokens `before` return, junk before the next packet is reported, and the call
of `gdb_packet_analysis` for this packet does not return.
-/
def StopsInCall (env : Env) (behind : Nat → List (BitVec 8)) (n : Nat) (data : ParserData)
    (before : List Token) (yytext : List (BitVec 8)) (reason : ScannerStop)
    : Prop :=
  ∃ reached flushed,
    (actions env behind n before data).result = .ok ((), reached)
    ∧ (handleError reached).result = .ok ((), flushed)
    ∧ (sending (gdbPacketAnalysis env (yytext ++ 0 :: behind (n + before.length)) yytext.length)
        flushed).result
      = .error reason

/-- A `k` is among the tokens, in a packet that is accepted. -/
def Killed (found : List Token) : Prop :=
  ∃ received : Received, Kills received ∧ received.token ∈ found

/-- What the scanner does next: the action of a token, or the report at the end of the input. -/
def nextAction (env : Env) (behind : Nat → List (BitVec 8)) (n : Nat) : List Token → Scan Unit
  | [] => handleError
  | token :: _ => action env (behind n) token

/-- The actions of the tokens `before` return, and what comes next ends the process, before it calls
`gdb_packet_analysis`, by writing to a connection that the `k` of the session has closed.
-/
def StopsClosed (env : Env) (behind : Nat → List (BitVec 8)) (n : Nat) (data : ParserData)
    (before rest : List Token)
    : Prop :=
  ∃ reached,
    (actions env behind n before data).result = .ok ((), reached)
    ∧ reached.closed = true
    ∧ (nextAction env behind (n + before.length) rest reached).result = .error .closedConnection
    ∧ calls (nextAction env behind (n + before.length) rest reached) = []

-----------------------------------------------------------------------------------------
-- One token
-----------------------------------------------------------------------------------------

/-- Between tokens the connection is open and all is as the tokens sent so far say, or a `k` has
closed it and the junk fits.
-/
def Serving (seen : List Token) (data : ParserData) : Prop :=
  (∃ link sent, Linked link sent data)
  ∨ data.closed = true ∧ data.len < MAX_ERROR_SIZE ∧ Killed seen

theorem Killed.append {seen : List Token} (killed : Killed seen) (more : List Token)
    : Killed (seen ++ more) := by
  obtain ⟨received, kills, member⟩ := killed
  exact ⟨received, kills, List.mem_append_left more member⟩

theorem calls_eq_nil {α : Type} {act : Scan α} (silent : Logs ScannerEvent.analysis? [] act)
    (data : ParserData)
    : calls (act data) = [] :=
  List.prefix_nil.mp (silent data).1

theorem calls_action {env : Env} {behind : List (BitVec 8)} {token : Token}
    {data after : ParserData}
    (ran : (action env behind token data).result = .ok ((), after))
    : calls (action env behind token data) = token.packet?.toList :=
  (logs_action env behind token data).2 () after ran

/-- The action of a packet calls `gdb_packet_analysis` if it gets past `handle_error`. -/
theorem calls_packet {env : Env} {behind yytext : List (BitVec 8)} {data flushed : ParserData}
    (ran : (handleError data).result = .ok ((), flushed))
    : calls (action env behind (.packet yytext) data) = [yytext] := by
  let call := sending (gdbPacketAnalysis env (yytext ++ 0 :: behind) yytext.length)
  have analysis : (action env behind (.packet yytext) data).events
      = (handleError data).events ++ (.analysis yytext :: (call flushed).events) := by
    rw [action, bind_events ran, bind_events (x := log _) (a := ()) (t := flushed) rfl]
    rfl
  have before : calls (handleError data) = [] := calls_eq_nil logs_handleError data
  have inside : calls (call flushed) = [] := calls_eq_nil (logs_sending _) flushed
  rw [calls] at before inside
  rw [calls, analysis, List.filterMap_append, before, List.filterMap_cons, inside]
  rfl

/-- On a closed connection `handle_error` ends the process if there is junk. -/
theorem handleError_closed {data : ParserData} (isClosed : data.closed = true)
    (fits : data.len < MAX_ERROR_SIZE)
    : data.len = 0 ∧ (handleError data).result = .ok ((), data)
      ∨ (handleError data).result = .error .closedConnection := by
  by_cases none : data.len = 0
  · exact .inl ⟨none, handleError_of_none none⟩
  · exact .inr (handleError_of_closed isClosed none fits)

/-- How the action of a token goes: it returns, or it stops in the call for its packet, or it ends
the process without a call.
-/
def Goes (env : Env) (behind : List (BitVec 8)) (seen : List Token) (token : Token)
    (data : ParserData)
    : Prop :=
  (∃ after, (action env behind token data).result = .ok ((), after)
    ∧ Serving (seen ++ [token]) after)
  ∨ (∃ yytext flushed reason,
      token = .packet yytext
      ∧ (handleError data).result = .ok ((), flushed)
      ∧ (sending (gdbPacketAnalysis env (yytext ++ 0 :: behind) yytext.length) flushed).result
        = .error reason)
  ∨ (data.closed = true
      ∧ Killed seen
      ∧ (action env behind token data).result = .error .closedConnection
      ∧ calls (action env behind token data) = [])

section Tokens

variable {env : Env} {behind : List (BitVec 8)} {seen : List Token} {data : ParserData}

/-- On an open connection only a packet may stop the scanner. -/
theorem goes_of_linked {link : Link} {sent : List Token} (linked : Linked link sent data)
    (received : Received) (whole : received.IsWhole)
    : Goes env behind seen received.token data := by
  have returns {next : Link} {more : List Token}
      (handles : Handles env behind received data next more)
      : Goes env behind seen received.token data := by
    obtain ⟨after, ran, stays, -⟩ := handles
    exact .inl ⟨after, ran, .inl ⟨next, more, stays⟩⟩
  cases received with
  | ack => exact returns linked.ack
  | retransmission => exact returns linked.retransmission
  | character c => exact returns (linked.character c)
  | echo c => exact returns (linked.echo c)
  | packet payload digits =>
      obtain ⟨flushed, reported, cleared, -⟩ := linked.flush
      have same : (action env behind (Received.packet payload digits).token data).result
          = (sending (gdbPacketAnalysis env (requestText payload digits ++ 0 :: behind)
              (requestText payload digits).length) flushed).result := by
        rw [Received.token, action, bind_result reported]
        exact bind_result rfl
      cases ran : (action env behind (Received.packet payload digits).token data).result with
      | error reason => exact .inr (.inl ⟨_, flushed, reason, rfl, reported, same.symm.trans ran⟩)
      | ok ended =>
          by_cases valid : ChecksumDigits payload digits
          · obtain ⟨⟨⟩, after⟩ := ended
            obtain ⟨other, isCleared, -, accepts⟩ := linked.accepted valid
            obtain ⟨t, dispatched, rfl⟩ := (accepts after).mp ran
            refine .inl ⟨_, ran, ?_⟩
            by_cases isKill : payload.head? = some (ascii 'k')
            · rw [dispatch_kill isKill]
              refine .inr ⟨rfl, isCleared.junk ▸ Nat.succ_pos _, .packet payload digits,
                ⟨valid, isKill⟩, List.mem_append_right seen List.mem_cons_self⟩
            · rw [contains_shutdown_dispatch isKill dispatched]
              obtain ⟨next, reply, -, rfl⟩ := replies_of_dispatch isKill dispatched
              exact .inl ⟨_, _, isCleared.answering next reply⟩
          · exact returns (linked.refused whole.2 valid)

/-- Behind a `k` a token passes if nothing has to be sent for it. -/
theorem goes_of_closed (isClosed : data.closed = true) (fits : data.len < MAX_ERROR_SIZE)
    (killed : Killed seen) (token : Token)
    : Goes env behind seen token data := by
  have stays {after : ParserData} (still : after.closed = true) (low : after.len < MAX_ERROR_SIZE)
      (ran : (action env behind token data).result = .ok ((), after))
      : Goes env behind seen token data :=
    .inl ⟨after, ran, .inr ⟨still, low, killed.append _⟩⟩
  have ends (notPacket : token.packet? = none)
      (ran : (action env behind token data).result = .error .closedConnection)
      : Goes env behind seen token data := by
    have silent : Logs ScannerEvent.analysis? [] (action env behind token) := by
      have logged := logs_action env behind token
      rwa [notPacket] at logged
    exact .inr (.inr ⟨isClosed, killed, ran, calls_eq_nil silent data⟩)
  cases token with
  | ack =>
      rcases handleError_closed isClosed fits with ⟨-, passed⟩ | stopped
      · exact stays isClosed fits passed
      · exact ends rfl stopped
  | retransmission =>
      rcases handleError_closed isClosed fits with ⟨-, passed⟩ | stopped
      · have same : (action env behind .retransmission data).result
            = ((if data.gdb.len = 0 then inSession gdbTransmitPacket
                else sending gdbTransmitPacket) data).result := by
          rw [action, bind_result passed]
          rfl
        by_cases empty : data.gdb.len = 0
        · rw [if_pos empty] at same
          let after : ParserData :=
            { data with gdb := data.gdb.sends data.gdb.lastFrame, closed := data.closed || false }
          have still : after.closed = true := by
            rw [show after.closed = (data.closed || false) from rfl, isClosed]
            rfl
          exact stays still fits same
        · rw [if_neg empty, sending_closed isClosed] at same
          exact ends rfl same
      · refine ends rfl ?_
        rw [action, bind_result_error stopped]
  | packet yytext =>
      rcases handleError_closed isClosed fits with ⟨-, passed⟩ | stopped
      · exact .inr (.inl ⟨yytext, data, .closedConnection, rfl, passed, sending_closed isClosed⟩)
      · have none : calls (action env behind (.packet yytext) data) = [] := by
          rw [calls, action, bind_events_error stopped]
          exact calls_eq_nil logs_handleError data
        refine .inr (.inr ⟨isClosed, killed, ?_, none⟩)
        rw [action, bind_result_error stopped]
  | character c =>
      have size : MAX_ERROR_SIZE = 1024 := rfl
      by_cases room : data.len < 1023
      · have low : (data.keeping c).len < MAX_ERROR_SIZE := Nat.succ_lt_succ room
        have still : (data.keeping c).closed = true := isClosed
        exact stays still low (addCharacterToError_of_room room c)
      · have stopped := handleError_of_closed isClosed (by omega) fits
        have full : data.len > MAX_ERROR_SIZE - 2 := by omega
        refine ends rfl ?_
        rw [action, addCharacterToError, bind_result (x := get) (a := data) (t := data) rfl,
          if_pos full, bind_result_error stopped]
  | echo c => exact stays isClosed fits rfl

theorem goes_of_serving (env : Env) (behind : List (BitVec 8)) (serving : Serving seen data) (received : Received)
    (whole : received.IsWhole)
    : Goes env behind seen received.token data := by
  rcases serving with ⟨link, sent, linked⟩ | ⟨isClosed, fits, killed⟩
  · exact goes_of_linked linked received whole
  · exact goes_of_closed isClosed fits killed received.token

end Tokens

-----------------------------------------------------------------------------------------
-- All tokens
-----------------------------------------------------------------------------------------

/-- The run of the scanner behind some tokens. -/
def scanOn (env : Env) (behind : Nat → List (BitVec 8)) (n : Nat) (found : List Token)
    : Scan Unit := do
  actions env behind n found
  handleError

/-- How the run goes on: it hands over all packets, or those up to the call in which it stops, or
those before the token at which the process ends.
-/
def GoesOn (env : Env) (behind : Nat → List (BitVec 8)) (n : Nat) (seen found : List Token)
    (data : ParserData)
    : Prop :=
  ((∃ after, (scanOn env behind n found data).result = .ok ((), after))
    ∧ calls (scanOn env behind n found data) = packets found)
  ∨ (∃ before yytext rest reason,
      found = before ++ .packet yytext :: rest
      ∧ StopsInCall env behind n data before yytext reason
      ∧ (scanOn env behind n found data).result = .error reason
      ∧ calls (scanOn env behind n found data) = packets before ++ [yytext])
  ∨ ∃ before rest,
      found = before ++ rest
      ∧ Killed (seen ++ before)
      ∧ StopsClosed env behind n data before rest
      ∧ (scanOn env behind n found data).result = .error .closedConnection
      ∧ calls (scanOn env behind n found data) = packets before

section Runs

variable {env : Env} {behind : Nat → List (BitVec 8)} {n : Nat} {seen rest : List Token}
  {token : Token} {data after : ParserData}

theorem scanOn_cons
    : scanOn env behind n (token :: rest)
      = action env (behind n) token >>= fun _ => scanOn env behind (n + 1) rest := by
  rw [scanOn, actions, bind_assoc]
  rfl

theorem packets_cons : packets (token :: rest) = token.packet?.toList ++ packets rest := by
  rw [packets, List.filterMap_cons]
  cases token.packet? <;> rfl

theorem actions_cons (ran : (action env (behind n) token data).result = .ok ((), after))
    : (actions env behind n (token :: rest) data).result
      = (actions env behind (n + 1) rest after).result :=
  bind_result ran

/-- A token whose action returns, in front of what has been shown of the others. -/
theorem GoesOn.cons (ran : (action env (behind n) token data).result = .ok ((), after))
    (goesOn : GoesOn env behind (n + 1) (seen ++ [token]) rest after)
    : GoesOn env behind n seen (token :: rest) data := by
  have result : (scanOn env behind n (token :: rest) data).result
      = (scanOn env behind (n + 1) rest after).result := by
    rw [scanOn_cons, bind_result ran]
  have called : calls (scanOn env behind n (token :: rest) data)
      = token.packet?.toList ++ calls (scanOn env behind (n + 1) rest after) := by
    have first := calls_action ran
    rw [calls] at first
    rw [calls, scanOn_cons, bind_events ran, List.filterMap_append, first]
    rfl
  have position (before : List Token) : n + 1 + before.length = n + (token :: before).length := by
    rw [List.length_cons]
    omega
  rcases goesOn with ⟨⟨last, returns⟩, all⟩
    | ⟨before, yytext, others, reason, rfl, stops, failed, some⟩
    | ⟨before, others, rfl, killed, stops, failed, some⟩
  · exact .inl ⟨⟨last, result.trans returns⟩, by rw [called, all, packets_cons]⟩
  · obtain ⟨reached, flushed, acted, reported, stopped⟩ := stops
    rw [position] at stopped
    refine .inr (.inl ⟨token :: before, yytext, others, reason, rfl,
      ⟨reached, flushed, (actions_cons ran).trans acted, reported, stopped⟩,
      result.trans failed, ?_⟩)
    rw [called, some, packets_cons, List.append_assoc]
  · obtain ⟨reached, acted, isClosed, ends, silent⟩ := stops
    rw [position] at ends silent
    refine .inr (.inr ⟨token :: before, others, rfl, ?_,
      ⟨reached, (actions_cons ran).trans acted, isClosed, ends, silent⟩, result.trans failed, ?_⟩)
    · rwa [List.append_cons]
    · rw [called, some, packets_cons]

/-- By induction on the tokens. -/
theorem goesOn_of_serving (all : List Received) (whole : ∀ received ∈ all, received.IsWhole)
    (serving : Serving seen data)
    : GoesOn env behind n seen (all.map Received.token) data := by
  induction all generalizing n seen data with
  | nil =>
      have atEnd : scanOn env behind n [] data = handleError data := by
        rw [scanOn, actions, pure_bind]
      have silent : calls (handleError data) = [] := calls_eq_nil logs_handleError data
      rw [List.map_nil, GoesOn, atEnd]
      rcases serving with ⟨link, sent, linked⟩ | ⟨isClosed, fits, killed⟩
      · obtain ⟨flushed, ran, -⟩ := linked.flush
        exact .inl ⟨⟨flushed, ran⟩, silent⟩
      · rcases handleError_closed isClosed fits with ⟨-, passed⟩ | stopped
        · exact .inl ⟨⟨data, passed⟩, silent⟩
        · exact .inr (.inr ⟨[], [], rfl, killed.append [], ⟨data, rfl, isClosed, stopped, silent⟩,
            stopped, silent⟩)
  | cons received others ih =>
      have later := fun other member => whole other (List.mem_cons_of_mem received member)
      rw [List.map_cons]
      rcases goes_of_serving env (behind n) serving received
          (whole received List.mem_cons_self)
        with ⟨after, ran, stays⟩ | ⟨yytext, flushed, reason, same, reported, stopped⟩
          | ⟨isClosed, killed, stopped, silent⟩
      · exact .cons ran (ih later stays)
      · have acted : (action env (behind n) (.packet yytext) data).result = .error reason := by
          rw [action, bind_result reported, bind_result (x := log _) (a := ()) (t := flushed) rfl]
          exact stopped
        rw [same]
        refine .inr (.inl ⟨[], yytext, _, reason, rfl,
          ⟨data, flushed, rfl, reported, stopped⟩, ?_, ?_⟩)
        · rw [scanOn_cons, bind_result_error acted]
        · rw [calls, scanOn_cons, bind_events_error acted]
          exact calls_packet reported
      · refine .inr (.inr ⟨[], _, rfl, killed.append [],
          ⟨data, rfl, isClosed, stopped, silent⟩, ?_, ?_⟩)
        · rw [scanOn_cons, bind_result_error stopped]
        · rw [calls, scanOn_cons, bind_events_error stopped]
          exact silent

end Runs

-----------------------------------------------------------------------------------------
-- Inputs
-----------------------------------------------------------------------------------------

/-- The scanner accepts exactly the frames, and hands them over in their order: all of them if it
returns, those up to and including the one whose call of `gdb_packet_analysis` does not return, or,
behind an accepted `k`, those before the point at which the process ends since something has to be
sent.
-/
theorem yylex_frames (env : Env) (behind : Nat → List (BitVec 8)) (arm : ArmCore)
    (packet buffer : Nat → BitVec 8) (input : List (BitVec 8))
    : packets (scanned input) = frames input
      ∧ (((∃ after,
            (yylex env behind input (gdbScannerData arm packet buffer)).result = .ok ((), after))
          ∧ calls (yylex env behind input (gdbScannerData arm packet buffer)) = frames input)
        ∨ (∃ before yytext rest reason,
            scanned input = before ++ .packet yytext :: rest
            ∧ StopsInCall env behind 0 (gdbScannerData arm packet buffer) before yytext reason
            ∧ (yylex env behind input (gdbScannerData arm packet buffer)).result = .error reason
            ∧ calls (yylex env behind input (gdbScannerData arm packet buffer))
              = packets before ++ [yytext])
        ∨ ∃ before rest,
            scanned input = before ++ rest
            ∧ Killed before
            ∧ StopsClosed env behind 0 (gdbScannerData arm packet buffer) before rest
            ∧ (yylex env behind input (gdbScannerData arm packet buffer)).result
              = .error .closedConnection
            ∧ calls (yylex env behind input (gdbScannerData arm packet buffer))
              = packets before) := by
  have all : packets (scanned input) = frames input :=
    packets_of_scans (LongestMatch.scans_tokens input)
  obtain ⟨received, found, whole⟩ :=
    exists_received fun yytext (member : .packet yytext ∈ scanned input) =>
      isFrame_of_scanned member
  have goesOn
      : GoesOn env behind 0 [] (received.map Received.token) (gdbScannerData arm packet buffer) :=
    goesOn_of_serving received whole (.inl ⟨_, _, linked_gdbScannerData arm packet buffer⟩)
  rw [found, GoesOn, all] at goesOn
  exact ⟨all, goesOn⟩

/-- A question for the stop reason behind a request for a register that does not exist. -/
theorem scanned_missingRegister
    : scanned (text "$p19#da$?#3f") = [.packet (text "$p19#da"), .packet (text "$?#3f")] := by
  let tokens : List Token := [.packet (text "$p19#da"), .packet (text "$?#3f")]
  have register : IsFrame (text "$p19#da") :=
    ⟨text "p19", text "da", rfl, by decide, rfl, by decide⟩
  have question : IsFrame (text "$?#3f") := ⟨text "?", text "3f", rfl, by decide, rfl, by decide⟩
  have plain : ∀ token ∈ tokens, token.IsPlain :=
    List.forall_mem_cons.mpr ⟨register, List.forall_mem_singleton.mpr question⟩
  have bytes : tokens.flatMap Token.bytes = text "$p19#da$?#3f" := by decide
  rw [← bytes, scanned_bytes plain]

/-- And one behind a `k` and a byte of junk. -/
theorem scanned_killed
    : scanned (text "$k#6bx$?#3f")
      = [.packet (text "$k#6b"), .character (ascii 'x'), .packet (text "$?#3f")] := by
  let tokens : List Token :=
    [.packet (text "$k#6b"), .character (ascii 'x'), .packet (text "$?#3f")]
  have kill : IsFrame (text "$k#6b") := ⟨text "k", text "6b", rfl, by decide, rfl, by decide⟩
  have junk : Token.IsPlain (.character (ascii 'x')) := ⟨ascii 'x', by decide, rfl⟩
  have question : IsFrame (text "$?#3f") := ⟨text "?", text "3f", rfl, by decide, rfl, by decide⟩
  have plain : ∀ token ∈ tokens, token.IsPlain :=
    List.forall_mem_cons.mpr
      ⟨kill, List.forall_mem_cons.mpr ⟨junk, List.forall_mem_singleton.mpr question⟩⟩
  have bytes : tokens.flatMap Token.bytes = text "$k#6bx$?#3f" := by decide
  rw [← bytes, scanned_bytes plain]

set_option maxRecDepth 4000 in
/-- The frame with `?` is not handed over: an `assert` ends the process before, and the junk behind
a `k` cannot be reported.
-/
theorem frames_notAllCalled
    : frames (text "$p19#da$?#3f") = [text "$p19#da", text "$?#3f"]
      ∧ calls (yylex .plain (fun _ => []) (text "$p19#da$?#3f") oneWordScanner) = [text "$p19#da"]
      ∧ frames (text "$k#6bx$?#3f") = [text "$k#6b", text "$?#3f"]
      ∧ calls (yylex .plain (fun _ => []) (text "$k#6bx$?#3f") oneWordScanner)
        = [text "$k#6b"] := by
  refine ⟨?_, ?_, ?_, ?_⟩
  · rw [← packets_of_scans (LongestMatch.scans_tokens _)]
    exact congrArg packets scanned_missingRegister
  · rw [yylex, scanned_missingRegister]
    rfl
  · rw [← packets_of_scans (LongestMatch.scans_tokens _)]
    exact congrArg packets scanned_killed
  · rw [yylex, scanned_killed]
    rfl

end Armator.Gdb
