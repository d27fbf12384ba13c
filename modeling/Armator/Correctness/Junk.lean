import Mathlib.Algebra.Order.Floor.Div
import Armator.Correctness.Retransmission

/-! Junk is reported in parts that fill the error buffer, and each byte of it once. -/

namespace Armator.Gdb

open CText Traced

/-- A byte between the recognised tokens; a newline is copied to the output. -/
def Token.IsJunk : Token → Prop
  | .character _ => True
  | .echo _ => True
  | _ => False

def Token.character? : Token → Option (BitVec 8)
  | .character c => some c
  | _ => none

/-- The bytes of some junk that count. -/
def junkCharacters (junk : List Token) : List (BitVec 8) :=
  junk.filterMap Token.character?

/-- A maximal run of junk among the tokens of the input, with a byte that counts. -/
structure IsJunkRun (input : List (BitVec 8)) (before junk rest : List Token) : Prop where
  tokens : scanned input = before ++ (junk ++ rest)
  isJunk : ∀ token ∈ junk, token.IsJunk
  starts : ∀ token, before.getLast? = some token → ¬ token.IsJunk
  stops : ∀ token, rest.head? = some token → ¬ token.IsJunk
  counts : junkCharacters junk ≠ []

/-- The text in the error buffer. -/
def ParserData.held (data : ParserData) : List (BitVec 8) :=
  (List.range data.len).map data.buffer

/-- A call of `handle_error` that asks once for retransmission, for the text it reports. -/
structure Requested (data : ParserData) (reported : List (BitVec 8)) (after : ParserData)
    : Prop where
  nonempty : reported ≠ []
  held : data.held = reported
  ends : (handleError data).result = .ok ((), after)
  sent : after.gdb = data.gdb.sends (text "-")

/-- What is asked for while some junk is read: nothing is sent when a token is kept only, and a full
buffer is reported before the next byte is kept.
-/
inductive Covers (env : Env) (behind : Nat → List (BitVec 8))
    : Nat → ParserData → List Token → List (List (BitVec 8)) → ParserData → Prop
  | nil {n : Nat} {data : ParserData} : Covers env behind n data [] [] data
  | keep {n : Nat} {data next after : ParserData} {token : Token} {rest : List Token}
      {requests : List (List (BitVec 8))}
      (ends : (action env (behind n) token data).result = .ok ((), next))
      (silent : next.gdb = data.gdb)
      (goesOn : Covers env behind (n + 1) next rest requests after)
      : Covers env behind n data (token :: rest) requests after
  | report {n : Nat} {data flushed next after : ParserData} {reported : List (BitVec 8)}
      {token : Token} {rest : List Token} {requests : List (List (BitVec 8))}
      (requested : Requested data reported flushed)
      (ends : (action env (behind n) token data).result = .ok ((), next))
      (silent : next.gdb = flushed.gdb)
      (goesOn : Covers env behind (n + 1) next rest requests after)
      : Covers env behind n data (token :: rest) (reported :: requests) after

-----------------------------------------------------------------------------------------
-- The index of the error buffer
-----------------------------------------------------------------------------------------

/-- A write to the error buffer is inside the array. -/
def InBuffer : ScannerEvent → Prop
  | .write index => index < MAX_ERROR_SIZE
  | _ => True

section Index

variable {data : ParserData}

/-- A call that works on the session leaves the index. -/
theorem inBuffer_inSession (call : Act Unit)
    : Meets InBuffer (fun _ => True) (fun _ after => after.len = data.len) (inSession call)
        data := by
  constructor
  · intro event member
    obtain ⟨inner, -, rfl⟩ := List.mem_map.mp member
    trivial
  · rw [inSession]
    cases (call data.gdb).result with
    | ok ended => rfl
    | error reason => trivial

theorem inBuffer_sending (call : Act Unit)
    : Meets InBuffer (fun _ => True) (fun _ after => after.len = data.len) (sending call) data := by
  rw [sending, meets_bind, meets_get]
  split
  · exact (meets_stop _).mpr trivial
  · exact inBuffer_inSession call

theorem inBuffer_handleError (fits : data.len < MAX_ERROR_SIZE)
    : Meets InBuffer (fun _ => True) (fun _ after => after.len = 0) handleError data := by
  rw [handleError, meets_bind, meets_get]
  split
  · simp only [meets_bind]
    rw [meets_writeBuffer (fun _ below => below) fits]
    exact (inBuffer_sending _).mono fun _ _ _ => (meets_modify _).mpr rfl
  · next none => exact (meets_pure ()).mpr (not_not.mp none)

/-- The test before a byte is kept leaves room for it and for the NUL. -/
theorem inBuffer_addCharacterToError (fits : data.len < MAX_ERROR_SIZE) (c : BitVec 8)
    : Meets InBuffer (fun _ => True) (fun _ after => after.len < MAX_ERROR_SIZE)
        (addCharacterToError c) data := by
  refine meets_addCharacterToError (fun _ below => below) c (fun room => Nat.succ_lt_succ room) ?_
  intro full
  refine (inBuffer_handleError fits).mono fun _ next none => ?_
  change next.len < MAX_ERROR_SIZE ∧ next.len + 1 < MAX_ERROR_SIZE
  rw [none]
  decide

/-- Every token leaves the index inside the array, and a recognised one leaves no junk. -/
theorem inBuffer_action (fits : data.len < MAX_ERROR_SIZE) (env : Env) (behind : List (BitVec 8))
    (token : Token)
    : Meets InBuffer (fun _ => True)
        (fun _ after => after.len < MAX_ERROR_SIZE ∧ (¬ token.IsJunk → after.len = 0))
        (action env behind token) data := by
  have none {after : ParserData} (empty : after.len = 0)
      : after.len < MAX_ERROR_SIZE ∧ (¬ token.IsJunk → after.len = 0) :=
    ⟨empty ▸ (by decide), fun _ => empty⟩
  cases token with
  | ack => exact (inBuffer_handleError fits).mono fun _ _ => none
  | retransmission =>
      rw [action]
      simp only [meets_bind, meets_get]
      refine (inBuffer_handleError fits).mono fun _ flushed empty => ?_
      split
      · exact (inBuffer_inSession _).mono fun _ _ same => none (same.trans empty)
      · exact (inBuffer_sending _).mono fun _ _ same => none (same.trans empty)
  | packet yytext =>
      rw [action]
      simp only [meets_bind, meets_log]
      refine (inBuffer_handleError fits).mono fun _ flushed empty => ⟨trivial, ?_⟩
      exact (inBuffer_sending _).mono fun _ _ same => none (same.trans empty)
  | character c =>
      exact (inBuffer_addCharacterToError fits c).mono fun _ _ low =>
        ⟨low, fun recognised => absurd trivial recognised⟩
  | echo c =>
      exact (meets_log _).mpr ⟨trivial, fits, fun recognised => absurd trivial recognised⟩

/-- By induction on the tokens. -/
theorem inBuffer_actions (fits : data.len < MAX_ERROR_SIZE) (env : Env)
    (behind : Nat → List (BitVec 8)) (n : Nat) (found : List Token)
    : Meets InBuffer (fun _ => True)
        (fun _ after =>
          after.len < MAX_ERROR_SIZE
          ∧ (found = [] → after = data)
          ∧ ∀ token, found.getLast? = some token → ¬ token.IsJunk → after.len = 0)
        (actions env behind n found) data := by
  induction found generalizing n data with
  | nil =>
      refine (meets_pure ()).mpr ⟨fits, fun _ => rfl, fun token last => ?_⟩
      cases last
  | cons first rest ih =>
      rw [actions, meets_bind]
      refine (inBuffer_action fits env (behind n) first).mono fun _ next stepped => ?_
      obtain ⟨low, empties⟩ := stepped
      refine (ih low (n + 1)).mono fun _ after ended => ?_
      obtain ⟨below, same, emptied⟩ := ended
      refine ⟨below, fun empty => (List.cons_ne_nil first rest empty).elim, ?_⟩
      intro token last recognised
      cases rest with
      | nil =>
          obtain rfl : first = token := Option.some.inj last
          rw [same rfl]
          exact empties recognised
      | cons second others =>
          rw [List.getLast?_cons_cons] at last
          exact emptied token last recognised

end Index

-----------------------------------------------------------------------------------------
-- What is kept and what is reported
-----------------------------------------------------------------------------------------

/-- Between the tokens of some junk: the connection is open, and the text is in the buffer. -/
structure Keeps (data : ParserData) (kept : List (BitVec 8)) : Prop where
  isOpen : data.closed = false
  held : data.held = kept
  fits : kept.length < MAX_ERROR_SIZE

section Keeping

variable {data : ParserData} {kept : List (BitVec 8)}

theorem Keeps.len_eq (keeps : Keeps data kept) : data.len = kept.length := by
  rw [← keeps.held, ParserData.held, List.length_map, List.length_range]

/-- An empty buffer. -/
theorem keeps_nil (isOpen : data.closed = false) (none : data.len = 0) : Keeps data [] := by
  refine ⟨isOpen, ?_, by decide⟩
  rw [ParserData.held, none]
  rfl

/-- A byte behind the text. -/
theorem held_keeping (data : ParserData) (c : BitVec 8)
    : (data.keeping c).held = data.held ++ [c] := by
  have others : (List.range data.len).map (data.keeping c).buffer = data.held :=
    List.map_congr_left fun j member => if_neg (Nat.ne_of_lt (List.mem_range.mp member))
  have last : (data.keeping c).buffer data.len = c := if_pos rfl
  have longer : (data.keeping c).len = data.len + 1 := rfl
  rw [ParserData.held, longer, List.range_succ, List.map_append, others, List.map_singleton, last]

theorem Keeps.keeping (keeps : Keeps data kept) (room : kept.length < 1023) (c : BitVec 8)
    : Keeps (data.keeping c) (kept ++ [c]) := by
  refine ⟨keeps.isOpen, ?_, ?_⟩
  · rw [held_keeping, keeps.held]
  · rw [List.length_append, List.length_singleton]
    exact Nat.succ_lt_succ room

/-- The text is reported once, and the buffer is empty afterwards. -/
theorem Keeps.requested (keeps : Keeps data kept) (nonempty : kept ≠ [])
    : ∃ after, Requested data kept after ∧ Keeps after [] := by
  have low : data.len < MAX_ERROR_SIZE := keeps.len_eq ▸ keeps.fits
  have met : Meets (fun _ => True) (fun _ => False) (fun _ after => data.Flushed after) handleError
      data :=
    meets_handleError (fun _ _ => trivial) keeps.isOpen low fun _ flushed => flushed
  obtain ⟨⟨⟩, after, result, sent, none, isOpen⟩ := met.ends
  have dash : data.pending = text "-" := by
    refine if_neg ?_
    rw [keeps.len_eq]
    exact mt List.length_eq_zero_iff.mp nonempty
  exact ⟨after, ⟨nonempty, keeps.held, result, dash ▸ sent⟩, keeps_nil isOpen none⟩

/-- A byte is kept, or the full buffer is reported and the byte is the first one of the next
text.
-/
theorem Keeps.addCharacter (keeps : Keeps data kept) (c : BitVec 8)
    : ∃ next,
        (addCharacterToError c data).result = .ok ((), next)
        ∧ if kept.length < 1023 then next.gdb = data.gdb ∧ Keeps next (kept ++ [c])
          else next.gdb = data.gdb.sends (text "-") ∧ Keeps next [c] := by
  have len := keeps.len_eq
  have met
      : Meets (fun _ => True) (fun _ => False)
          (fun _ next =>
            if kept.length < 1023 then next.gdb = data.gdb ∧ Keeps next (kept ++ [c])
            else next.gdb = data.gdb.sends (text "-") ∧ Keeps next [c])
          (addCharacterToError c) data := by
    refine meets_addCharacterToError (fun _ _ => trivial) c (fun room => ?_) fun full => ?_
    · rw [if_pos (len ▸ room)]
      exact ⟨rfl, keeps.keeping (len ▸ room) c⟩
    · simp only [if_neg (len ▸ full)]
      refine meets_handleError (fun _ _ => trivial) keeps.isOpen (len ▸ keeps.fits) ?_
      rintro flushed ⟨sent, none, isOpen⟩
      have dash : data.pending = text "-" := if_neg (by omega)
      have empty : Keeps flushed [] := keeps_nil isOpen none
      have low : flushed.len < MAX_ERROR_SIZE := by
        rw [none]
        decide
      exact ⟨low, dash ▸ sent, empty.keeping (by decide) c⟩
  obtain ⟨⟨⟩, next, result, stored⟩ := met.ends
  exact ⟨next, result, stored⟩

/-- Junk is reported in full buffers, and a rest of it is kept, by induction on its tokens, for any
text that is kept before them.
-/
theorem covers_of_keeps (env : Env) (behind : Nat → List (BitVec 8)) (n : Nat) (junk : List Token)
    (isJunk : ∀ token ∈ junk, token.IsJunk) {data : ParserData} {kept : List (BitVec 8)}
    (keeps : Keeps data kept) (counts : kept ++ junkCharacters junk ≠ [])
    : ∃ early last left,
        Covers env behind n data junk early last
        ∧ Keeps last left
        ∧ left ≠ []
        ∧ (early ++ [left]).flatten = kept ++ junkCharacters junk
        ∧ (early ++ [left]).length = (kept ++ junkCharacters junk).length ⌈/⌉ 1023 := by
  have size : MAX_ERROR_SIZE = 1024 := rfl
  have fits := keeps.fits
  induction junk generalizing n data kept with
  | nil =>
      have empty : kept ++ junkCharacters [] = kept := List.append_nil kept
      rw [empty] at counts ⊢
      refine ⟨[], data, kept, .nil, keeps, counts, List.flatten_singleton, ?_⟩
      have positive : 0 < kept.length := List.length_pos_iff.mpr counts
      rw [List.nil_append, List.length_singleton, Nat.ceilDiv_eq_add_pred_div]
      omega
  | cons first rest ih =>
      have others : ∀ token ∈ rest, token.IsJunk :=
        fun token member => isJunk token (List.mem_cons_of_mem first member)
      cases first with
      | character c =>
          have split : kept ++ junkCharacters (.character c :: rest)
              = (kept ++ [c]) ++ junkCharacters rest :=
            (List.append_assoc kept [c] _).symm
          have more (start : List (BitVec 8)) : (start ++ [c]) ++ junkCharacters rest ≠ [] := by
            simp
          obtain ⟨next, ends, stored⟩ := keeps.addCharacter c
          by_cases low : kept.length < 1023
          · rw [if_pos low] at stored
            obtain ⟨silent, keptNext⟩ := stored
            obtain ⟨early, last, left, covers, keepsLast, some, covered, count⟩ :=
              ih (n + 1) others keptNext (more kept) keptNext.fits
            rw [split]
            exact ⟨early, last, left, .keep ends silent covers, keepsLast, some, covered, count⟩
          · rw [if_neg low] at stored
            obtain ⟨sent, keptNext⟩ := stored
            have nonempty : kept ≠ [] := by
              rintro rfl
              exact low (by decide)
            obtain ⟨flushed, requested, -⟩ := keeps.requested nonempty
            obtain ⟨early, last, left, covers, keepsLast, some, covered, count⟩ :=
              ih (n + 1) others keptNext (more []) keptNext.fits
            have silent : next.gdb = flushed.gdb := sent.trans requested.sent.symm
            refine ⟨kept :: early, last, left, .report requested ends silent covers, keepsLast,
              some, ?_, ?_⟩
            · rw [List.cons_append, List.flatten_cons, covered, split, List.append_assoc]
            · rw [split, List.cons_append, List.length_cons, count]
              simp only [List.length_append, List.length_singleton, Nat.ceilDiv_eq_add_pred_div]
              omega
      | echo c =>
          obtain ⟨early, last, left, covers, kept⟩ := ih (n + 1) others keeps counts fits
          exact ⟨early, last, left, .keep rfl rfl covers, kept⟩
      | ack => exact (isJunk .ack List.mem_cons_self).elim
      | retransmission => exact (isJunk .retransmission List.mem_cons_self).elim
      | packet yytext => exact (isJunk (.packet yytext) List.mem_cons_self).elim

end Keeping

-----------------------------------------------------------------------------------------
-- The run of the scanner around some junk
-----------------------------------------------------------------------------------------

section Runs

variable {env : Env} {behind : Nat → List (BitVec 8)} {n : Nat} {data after : ParserData}

/-- The actions of the tokens that are covered, by induction on the cover. -/
theorem Covers.ends {junk : List Token} {early : List (List (BitVec 8))}
    (covers : Covers env behind n data junk early after)
    : (actions env behind n junk data).result = .ok ((), after) := by
  induction covers with
  | nil => rfl
  | keep ends silent _ ih => exact (bind_result ends).trans ih
  | report requested ends silent _ ih => exact (bind_result ends).trans ih

/-- One `-` for each text, and nothing else. -/
theorem Covers.sent {junk : List Token} {early : List (List (BitVec 8))}
    (covers : Covers env behind n data junk early after)
    : after.gdb = data.gdb.sends (List.replicate early.length (ascii '-')) := by
  induction covers with
  | @nil n data => exact (congrArg (fun sent => { data.gdb with sent }) (List.append_nil _)).symm
  | keep ends silent _ ih => rw [ih, silent]
  | report requested ends silent _ ih =>
      rw [ih, silent, requested.sent, sends_sends, List.length_cons, List.replicate_succ]
      rfl

theorem actions_append {first : List Token}
    (ran : (actions env behind n first data).result = .ok ((), after)) (second : List Token)
    : (actions env behind n (first ++ second) data).result
      = (actions env behind (n + first.length) second after).result := by
  induction first generalizing n data with
  | nil =>
      cases ran
      rfl
  | cons token rest ih =>
      obtain ⟨⟨⟩, next, acted, others⟩ := of_bind_result ran
      rw [List.cons_append, actions, bind_result acted, ih others, List.length_cons, Nat.add_assoc,
        Nat.add_comm 1]

/-- The action of a recognised token starts with `handle_error`. -/
theorem action_of_not_isJunk (env : Env) {token : Token} (recognised : ¬ token.IsJunk)
    (text : List (BitVec 8))
    : ∃ more, action env text token = handleError >>= more := by
  cases token with
  | ack => exact ⟨pure, (andThen_done handleError).symm⟩
  | retransmission => exact ⟨_, rfl⟩
  | packet yytext => exact ⟨_, rfl⟩
  | character c => exact absurd trivial recognised
  | echo c => exact absurd trivial recognised

/-- What comes behind some junk starts with `handle_error`, at the end of the input as well. -/
theorem flushes_first (env : Env) (behind : Nat → List (BitVec 8)) (n : Nat) {rest : List Token}
    (stops : ∀ token, rest.head? = some token → ¬ token.IsJunk)
    : ∃ more : Unit → Scan Unit,
        (actions env behind n rest >>= fun _ => handleError) = handleError >>= more := by
  cases rest with
  | nil => exact ⟨pure, (andThen_done handleError).symm⟩
  | cons token others =>
      obtain ⟨more, starts⟩ := action_of_not_isJunk env (stops token rfl) (behind n)
      exact ⟨_, by rw [actions, starts, bind_assoc, bind_assoc]⟩

end Runs

/-- The scanner reports all junk. No input makes it write outside the error buffer; the action of
each recognised token starts with `handle_error`; and every maximal run of junk that is reached
while the connection is open is asked for in texts of the buffer's size, each of its bytes once: the
scanner sends one `-` for each full text while it reads the junk, one for the rest at the token or
the end of the input behind it, and goes on from there.
-/
theorem junk_covered (env : Env) (behind : Nat → List (BitVec 8)) (arm : ArmCore)
    (packet buffer : Nat → BitVec 8) (input : List (BitVec 8))
    : (∀ index,
        .write index ∈ (yylex env behind input (gdbScannerData arm packet buffer)).events
        → index < MAX_ERROR_SIZE)
      ∧ (∀ token : Token, ¬ token.IsJunk →
          ∀ text, ∃ more, action env text token = handleError >>= more)
      ∧ ∀ before junk rest data,
          IsJunkRun input before junk rest
          → (actions env behind 0 before (gdbScannerData arm packet buffer)).result = .ok ((), data)
          → data.closed = false
          → ∃ early last after,
              Covers env behind before.length data junk early last
              ∧ Requested last last.held after
              ∧ (early ++ [last.held]).flatten = junkCharacters junk
              ∧ (early ++ [last.held]).length = (junkCharacters junk).length ⌈/⌉ 1023
              ∧ after.gdb
                = data.gdb.sends
                    (List.replicate ((junkCharacters junk).length ⌈/⌉ 1023) (ascii '-'))
              ∧ after.len = 0
              ∧ (yylex env behind input (gdbScannerData arm packet buffer)).result
                = ((actions env behind (before.length + junk.length) rest >>= fun _ => handleError)
                    after).result
              ∧ (rest = []
                → (yylex env behind input (gdbScannerData arm packet buffer)).result
                  = .ok ((), after)) := by
  have starts : (gdbScannerData arm packet buffer).len < MAX_ERROR_SIZE :=
    Nat.succ_pos _
  refine ⟨?_, fun token => action_of_not_isJunk env, ?_⟩
  · intro index member
    have met : Meets InBuffer (fun _ => True) (fun _ after => after.len = 0)
        (yylex env behind input) (gdbScannerData arm packet buffer) := by
      rw [yylex, meets_bind]
      exact (inBuffer_actions starts env behind 0 (scanned input)).mono fun _ _ ended =>
        inBuffer_handleError ended.1
    exact met.1 _ member
  · intro before junk rest data isRun reached isOpen
    have met := inBuffer_actions starts env behind 0 before
    have ended := met.2
    rw [reached] at ended
    obtain ⟨-, same, emptied⟩ := ended
    have none : data.len = 0 := by
      cases last : before.getLast? with
      | none =>
          rw [same (List.getLast?_eq_none_iff.mp last)]
          rfl
      | some token => exact emptied token last (isRun.starts token last)
    obtain ⟨early, last, left, covers, keeps, some, covered, count⟩ :=
      covers_of_keeps env behind before.length junk isRun.isJunk
        (keeps_nil isOpen none) isRun.counts
    obtain rfl := keeps.held
    rw [List.nil_append] at covered count
    obtain ⟨after, requested, empty⟩ := keeps.requested some
    have flushed : after.len = 0 := empty.len_eq
    have again := handleError_of_none flushed
    have run : (yylex env behind input (gdbScannerData arm packet buffer)).result
        = ((actions env behind (before.length + junk.length) rest >>= fun _ => handleError)
            last).result := by
      rw [yylex, isRun.tokens]
      refine bind_result_congr ((actions_append reached (junk ++ rest)).trans ?_)
      rw [Nat.zero_add, actions_append covers.ends]
    obtain ⟨more, first⟩ := flushes_first env behind (before.length + junk.length)
      isRun.stops
    have goesOn : (yylex env behind input (gdbScannerData arm packet buffer)).result
        = ((actions env behind (before.length + junk.length) rest >>= fun _ => handleError)
            after).result := by
      rw [run, first, bind_result requested.ends, bind_result again]
    refine ⟨early, last, after, covers, requested, covered, count, ?_, flushed, goesOn, ?_⟩
    · rw [requested.sent, covers.sent, sends_sends, ← count, List.length_append,
        List.length_singleton, List.replicate_succ']
      rfl
    · rintro rfl
      rw [goesOn, actions, pure_bind]
      exact again

/-- The only byte of an input is asked for at its end. -/
theorem singleByte_covered
    : ∃ early last after,
        Covers .plain (fun _ => []) 0 oneWordScanner [.character (ascii 'x')] early last
        ∧ Requested last last.held after
        ∧ (early ++ [last.held]).flatten = text "x"
        ∧ (early ++ [last.held]).length = 1
        ∧ after.gdb = oneWordScanner.gdb.sends (text "-")
        ∧ (yylex .plain (fun _ => []) (text "x") oneWordScanner).result = .ok ((), after) := by
  have isRun : IsJunkRun (text "x") [] [.character (ascii 'x')] [] := by
    refine ⟨by decide +kernel, fun token member => ?_, fun _ last => ?_, fun _ first => ?_,
      by decide⟩
    · obtain rfl := List.mem_singleton.mp member
      trivial
    · cases last
    · cases first
  have covered :=
    junk_covered .plain (fun _ => []) (oneWord 4 0) (fun _ => 0) (fun _ => 0) (text "x")
  obtain ⟨early, last, after, covers, requested, flat, count, sent, -, -, ends⟩ :=
    covered.2.2 [] _ [] oneWordScanner isRun rfl rfl
  exact ⟨early, last, after, covers, requested, flat, count, sent, ends rfl⟩

/-- Nothing asks for the junk behind a `k`: the process ends when it is reported. -/
theorem junk_notCovered
    : ∃ data,
        IsJunkRun (text "$k#6bx") [.packet (text "$k#6b")] [.character (ascii 'x')] []
        ∧ (actions .plain (fun _ => []) 0 [.packet (text "$k#6b")] oneWordScanner).result
          = .ok ((), data)
        ∧ (yylex .plain (fun _ => []) (text "$k#6bx") oneWordScanner).result
          = .error .closedConnection
        ∧ ∀ early last after,
            Covers .plain (fun _ => []) 1 data [.character (ascii 'x')] early last
            → ¬ (early ≠ [] ∨ Requested last last.held after) := by
  have isRun
      : IsJunkRun (text "$k#6bx") [.packet (text "$k#6b")] [.character (ascii 'x')] [] := by
    refine ⟨by decide +kernel, fun token member => ?_, fun token last => ?_, fun _ first => ?_,
      by decide⟩
    · obtain rfl := List.mem_singleton.mp member
      trivial
    · obtain rfl : .packet (text "$k#6b") = token := Option.some.inj last
      exact id
    · cases first
  refine ⟨_, isRun, rfl, ?_, fun early last after covers => ?_⟩
  · rw [yylex, isRun.tokens]
    rfl
  · rintro (some | requested)
    · cases covers with
      | keep ends silent goesOn =>
          cases goesOn
          exact some rfl
      | report requested ends silent goesOn =>
          exact requested.nonempty requested.held.symm
    · have stopped := requested.ends
      cases covers.ends
      cases stopped

end Armator.Gdb
