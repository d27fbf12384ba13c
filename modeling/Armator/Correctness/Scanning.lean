import Armator.Simulator.Scanner

/-! The packets that the scanner finds are the frames in its input. -/

namespace Armator.Gdb

open CText Traced LongestMatch

/-- `$`, bytes other than `$` and `#`, `#` and two hexadecimal digits. -/
def IsFrame (s : List (BitVec 8)) : Prop :=
  ∃ payload digits,
    s = ascii '$' :: payload ++ ascii '#' :: digits
    ∧ (∀ c ∈ payload, c ≠ ascii '$' ∧ c ≠ ascii '#')
    ∧ digits.length = 2
    ∧ ∀ c ∈ digits, (hexDigit c).isSome

theorem mem_bytesThat {property : BitVec 8 → Bool} {c : BitVec 8}
    : c ∈ bytes.filter property ↔ property c := by
  have member : c ∈ bytes :=
    List.mem_map.mpr ⟨c.toNat, List.mem_range.mpr c.isLt,
      by rw [BitVec.ofNat_toNat, BitVec.setWidth_eq]⟩
  rw [List.mem_filter]
  exact and_iff_right member

theorem matches_packetPattern (s : List (BitVec 8))
    : s ∈ packetPattern.matches' ↔ IsFrame s := by
  have digit (t : List (BitVec 8)) : t ∈ HEX.matches' ↔ ∃ c, (hexDigit c).isSome ∧ t = [c] := by
    simp only [HEX, bytesThat, mem_oneOf, mem_bytesThat]
  have body (t : List (BitVec 8))
      : t ∈ (bytesThat fun c => c ≠ ascii '$' ∧ c ≠ ascii '#').star.matches'
        ↔ ∀ c ∈ t, c ≠ ascii '$' ∧ c ≠ ascii '#' := by
    simp only [bytesThat, mem_star_oneOf, mem_bytesThat, decide_eq_true_eq]
  have single (c : BitVec 8) (t : List (BitVec 8))
      : t ∈ (RegularExpression.char c).matches' ↔ t = [c] :=
    Set.mem_singleton_iff
  simp only [packetPattern, RegularExpression.matches'_mul, Language.mem_mul, digit, body, single]
  constructor
  · rintro ⟨_, ⟨_, ⟨_, ⟨_, rfl, payload, plain, rfl⟩, _, rfl, rfl⟩, _, ⟨d, first, rfl⟩, rfl⟩, _,
      ⟨e, second, rfl⟩, rfl⟩
    refine ⟨payload, [d, e], by simp, plain, rfl, ?_⟩
    simp only [List.mem_cons, List.not_mem_nil, or_false]
    rintro c (rfl | rfl)
    · exact first
    · exact second
  · rintro ⟨payload, digits, rfl, plain, two, hex⟩
    obtain ⟨d, e, rfl⟩ := List.length_eq_two.mp two
    exact ⟨_, ⟨_, ⟨_, ⟨_, rfl, payload, plain, rfl⟩, _, rfl, rfl⟩, _, ⟨d, hex d (by simp), rfl⟩, rfl⟩, _,
      ⟨e, hex e (by simp), rfl⟩, by simp⟩

instance (s : List (BitVec 8)) : Decidable (IsFrame s) :=
  decidable_of_iff _ ((RegularExpression.rmatch_iff_matches' packetPattern s).trans
    (matches_packetPattern s))

/-- The frame at the start of a text. -/
def frameAt (s : List (BitVec 8)) : Option (List (BitVec 8)) :=
  s.inits.find? fun start => IsFrame start

/-- The frames of a text, one for each place at which one starts. -/
def frames (s : List (BitVec 8)) : List (List (BitVec 8)) :=
  s.tails.filterMap frameAt

/-- The text of a packet. -/
def Token.packet? : Token → Option (List (BitVec 8))
  | .packet yytext => some yytext
  | _ => none

theorem IsFrame.four_le {s : List (BitVec 8)} (isFrame : IsFrame s) : 4 ≤ s.length := by
  obtain ⟨payload, digits, rfl, -, two, -⟩ := isFrame
  simp [two]

/-- A frame starts with its only `$`. -/
theorem IsFrame.dollar {s : List (BitVec 8)} (isFrame : IsFrame s)
    : ∃ rest, s = ascii '$' :: rest ∧ ∀ c ∈ rest, c ≠ ascii '$' := by
  obtain ⟨payload, digits, rfl, plain, -, hex⟩ := isFrame
  refine ⟨payload ++ ascii '#' :: digits, rfl, fun c member => ?_⟩
  rcases List.mem_append.mp member with inPayload | behind
  · exact (plain c inPayload).1
  · rcases List.mem_cons.mp behind with rfl | digit
    · decide
    · rintro rfl
      exact absurd (hex _ digit) (by decide)

/-- Only one frame starts at a place: it ends two bytes behind the first `#`. -/
theorem IsFrame.unique {s t u : List (BitVec 8)} (first : IsFrame s) (second : IsFrame t)
    (sFront : s <+: u) (tFront : t <+: u)
    : s = t := by
  have bodyOf {v : List (BitVec 8)} (isFrame : IsFrame v) (front : v <+: u)
      : ((u.drop 1).takeWhile fun c => c ≠ ascii '#').length + 4 = v.length := by
    obtain ⟨payload, digits, rfl, plain, two, -⟩ := isFrame
    obtain ⟨rest, rfl⟩ := front
    have kept : ∀ c ∈ payload, decide (c ≠ ascii '#') = true :=
      fun c member => decide_eq_true (plain c member).2
    rw [List.append_assoc, List.cons_append, List.drop_succ_cons, List.drop_zero,
      List.takeWhile_append_of_pos kept, List.cons_append,
      List.takeWhile_cons_of_neg (by simp), List.append_nil]
    simp [two]
  have same : s.length = t.length := (bodyOf first sFront).symm.trans (bodyOf second tFront)
  rw [List.prefix_iff_eq_take.mp sFront, List.prefix_iff_eq_take.mp tFront, same]

theorem frameAt_eq_some_iff (s u : List (BitVec 8))
    : frameAt u = some s ↔ IsFrame s ∧ s <+: u := by
  have sound {v : List (BitVec 8)} (found : frameAt u = some v) : IsFrame v ∧ v <+: u :=
    ⟨of_decide_eq_true (List.find?_some (p := fun start => decide (IsFrame start)) found),
      (List.mem_inits v u).mp (List.mem_of_find?_eq_some found)⟩
  refine ⟨sound, ?_⟩
  rintro ⟨isFrame, front⟩
  cases found : frameAt u with
  | none =>
      have none := List.find?_eq_none.mp found s ((List.mem_inits s u).mpr front)
      exact absurd (decide_eq_true isFrame) none
  | some v =>
      obtain ⟨isFrame', front'⟩ := sound found
      rw [isFrame'.unique isFrame front' front]

/-- No frame starts at another byte than `$`. -/
theorem frameAt_eq_none {c : BitVec 8} (other : c ≠ ascii '$') (rest : List (BitVec 8))
    : frameAt (c :: rest) = none := by
  cases found : frameAt (c :: rest) with
  | none => rfl
  | some s =>
      obtain ⟨isFrame, front⟩ := (frameAt_eq_some_iff s (c :: rest)).mp found
      obtain ⟨tail, rfl, -⟩ := isFrame.dollar
      exact absurd (List.cons_prefix_cons.mp front).1.symm other

theorem frames_cons (c : BitVec 8) (rest : List (BitVec 8))
    : frames (c :: rest) = (frameAt (c :: rest)).toList ++ frames rest := by
  rw [frames, List.tails_cons, List.filterMap_cons, frames]
  cases frameAt (c :: rest) <;> rfl

/-- Bytes other than `$` start no frame, by induction on them. -/
theorem frames_append {s : List (BitVec 8)} (other : ∀ c ∈ s, c ≠ ascii '$')
    (rest : List (BitVec 8))
    : frames (s ++ rest) = frames rest := by
  induction s with
  | nil => rfl
  | cons c s ih =>
      rw [List.cons_append, frames_cons, frameAt_eq_none (other c List.mem_cons_self)]
      exact ih fun d member => other d (List.mem_cons_of_mem c member)

/-- A frame at the start, and those behind it. -/
theorem frames_of_isFrame {s : List (BitVec 8)} (isFrame : IsFrame s) (rest : List (BitVec 8))
    : frames (s ++ rest) = s :: frames rest := by
  have here : frameAt (s ++ rest) = some s :=
    (frameAt_eq_some_iff s (s ++ rest)).mpr ⟨isFrame, List.prefix_append s rest⟩
  obtain ⟨tail, rfl, other⟩ := isFrame.dollar
  rw [List.cons_append] at here ⊢
  rw [frames_cons, here, frames_append other]
  rfl

-----------------------------------------------------------------------------------------
-- Tokens
-----------------------------------------------------------------------------------------

/-- A frame is a packet, and all other tokens are single bytes. -/
theorem firstRule_cases {s : List (BitVec 8)} {rule : Rule (BitVec 8) Token}
    (found : firstRule rules s = some rule)
    : (IsFrame s ∧ rule.token s = .packet s) ∨ s.length = 1 ∧ (rule.token s).packet? = none := by
  have member : rule ∈ rules := List.mem_of_find?_eq_some found
  have accepted := List.find?_some found
  rw [RegularExpression.rmatch_iff_matches'] at accepted
  simp only [rules, List.mem_cons, List.not_mem_nil, or_false] at member
  rcases member with rfl | rfl | rfl | rfl
  · obtain rfl : s = [ascii '+'] := accepted
    exact .inr ⟨rfl, rfl⟩
  · obtain rfl : s = [ascii '-'] := accepted
    exact .inr ⟨rfl, rfl⟩
  · exact .inl ⟨(matches_packetPattern s).mp accepted, rfl⟩
  · obtain ⟨c, -, rfl⟩ := mem_oneOf.mp accepted
    exact .inr ⟨rfl, rfl⟩

/-- Some rule matches a frame. -/
theorem firstRule_of_isFrame {s : List (BitVec 8)} (isFrame : IsFrame s)
    : firstRule rules s ≠ none := by
  intro none
  refine absurd ?_ (List.find?_eq_none.mp none { pattern := packetPattern, token := .packet } ?_)
  · exact (RegularExpression.rmatch_iff_matches' _ s).mpr ((matches_packetPattern s).mpr isFrame)
  · simp [rules]

/-- The packets of a scan are the frames, by induction on it: every `$` that starts a frame starts a
token, since no token but a frame has a second byte, and frames have one `$` only.
-/
theorem packets_of_scans {input : List (BitVec 8)} {found : List Token}
    (scans : Scans rules .echo input found)
    : found.filterMap Token.packet? = frames input := by
  induction scans with
  | nil => rfl
  | @matched rule s rest others isLongest _ ih =>
      rcases firstRule_cases isLongest.matched with ⟨isFrame, token⟩ | ⟨one, token⟩
      · rw [List.filterMap_cons, token, frames_of_isFrame isFrame, ih]
        rfl
      · obtain ⟨c, rfl⟩ := List.length_eq_one_iff.mp one
        have noFrame : frameAt ([c] ++ rest) = none := by
          cases here : frameAt ([c] ++ rest) with
          | none => rfl
          | some t =>
              obtain ⟨isFrame, front⟩ := (frameAt_eq_some_iff t _).mp here
              have longer := isFrame.four_le
              exact absurd (isLongest.maximal t front (by omega)) (firstRule_of_isFrame isFrame)
        rw [List.filterMap_cons, token]
        rw [List.singleton_append] at noFrame ⊢
        rw [frames_cons, noFrame]
        exact ih
  | @unmatched c rest others none _ ih =>
      have noFrame : frameAt (c :: rest) = Option.none := by
        cases here : frameAt (c :: rest) with
        | none => rfl
        | some t =>
            obtain ⟨isFrame, front⟩ := (frameAt_eq_some_iff t _).mp here
            have nonempty : t ≠ [] := by
              rintro rfl
              exact absurd isFrame.four_le (by decide)
            exact absurd (none t front nonempty) (firstRule_of_isFrame isFrame)
      rw [frames_cons, noFrame]
      exact ih

/-- A call of `gdb_packet_analysis`. -/
def ScannerEvent.analysis? : ScannerEvent → Option (List (BitVec 8))
  | .analysis yytext => some yytext
  | _ => none

section Calls

theorem logs_inSession (call : Act Unit) : Logs ScannerEvent.analysis? [] (inSession call) := by
  have silent (data : ParserData)
      : ((inSession call data).events).filterMap ScannerEvent.analysis? = [] :=
    List.filterMap_eq_nil_iff.mpr fun event member => by
      obtain ⟨_, -, rfl⟩ := List.mem_map.mp member
      rfl
  intro data
  rw [silent]
  exact ⟨List.nil_prefix, fun _ _ _ => rfl⟩

theorem logs_sending (call : Act Unit) : Logs ScannerEvent.analysis? [] (sending call) := by
  refine logs_get.bind fun data => ?_
  split
  · exact logs_stop [] _
  · exact logs_inSession call

theorem logs_writeBuffer (index : Nat) (c : BitVec 8)
    : Logs ScannerEvent.analysis? [] (writeBuffer index c) := by
  refine (logs_log _).bind fun _ => ?_
  split
  · exact logs_modify _
  · exact logs_stop [] _

theorem logs_handleError : Logs ScannerEvent.analysis? [] handleError := by
  refine logs_get.bind fun data => ?_
  split
  · exact (logs_writeBuffer _ _).bind fun _ => (logs_sending _).bind fun _ => logs_modify _
  · exact logs_pure ()

theorem logs_addCharacterToError (c : BitVec 8)
    : Logs ScannerEvent.analysis? [] (addCharacterToError c) := by
  have flushes (test : Prop) [Decidable test]
      : Logs ScannerEvent.analysis? [] (if test then handleError else pure ()) := by
    split
    · exact logs_handleError
    · exact logs_pure ()
  exact logs_get.bind fun _ => (flushes _).bind fun _ =>
    logs_get.bind fun _ => (logs_writeBuffer _ _).bind fun _ => logs_modify _

/-- Only the action of a packet has a call, and only one. Witness: one case for each token. -/
theorem logs_action (env : Env) (behind : List (BitVec 8)) (token : Token)
    : Logs ScannerEvent.analysis? token.packet?.toList (action env behind token) := by
  cases token with
  | ack => exact logs_handleError
  | retransmission =>
      refine logs_handleError.bind fun _ => logs_get.bind fun data => ?_
      split
      · exact logs_inSession _
      · exact logs_sending _
  | packet yytext =>
      exact logs_handleError.bind fun _ => (logs_log _).bind fun _ => logs_sending _
  | character c => exact logs_addCharacterToError c
  | echo c => exact logs_log _

end Calls

end Armator.Gdb
