import Armator.Correctness.Scanning

/-! Token streams as bytes and back: the scanner loses nothing, and finds again what is put together
of frames and single bytes.
-/

namespace Armator.Gdb

open CText LongestMatch

/-- The bytes of the input that make a token. -/
def Token.bytes : Token → List (BitVec 8)
  | .ack => text "+"
  | .retransmission => text "-"
  | .packet yytext => yytext
  | .character c => [c]
  | .echo c => [c]

/-- The token of a single byte. -/
def byteToken (c : BitVec 8) : Token :=
  if c = ascii '+' then .ack
  else if c = ascii '-' then .retransmission
  else if c = ascii '\n' then .echo c
  else .character c

/-- A frame, or the token of a byte that starts no frame. -/
def Token.IsPlain : Token → Prop
  | .packet yytext => IsFrame yytext
  | token => ∃ c, c ≠ ascii '$' ∧ token = byteToken c

theorem bytes_byteToken (c : BitVec 8) : (byteToken c).bytes = [c] := by
  unfold byteToken
  split
  · rename_i plus
    rw [plus]
    rfl
  split
  · rename_i minus
    rw [minus]
    rfl
  split <;> rfl

-----------------------------------------------------------------------------------------
-- Matches
-----------------------------------------------------------------------------------------

/-- A rule makes a token of the text that it matches. -/
theorem bytes_of_firstRule {s : List (BitVec 8)} {rule : Rule (BitVec 8) Token}
    (found : firstRule rules s = some rule)
    : (rule.token s).bytes = s := by
  have member : rule ∈ rules := List.mem_of_find?_eq_some found
  have accepted := List.find?_some found
  rw [RegularExpression.rmatch_iff_matches'] at accepted
  simp only [rules, List.mem_cons, List.not_mem_nil, or_false] at member
  rcases member with rfl | rfl | rfl | rfl
  · obtain rfl : s = [ascii '+'] := accepted
    rfl
  · obtain rfl : s = [ascii '-'] := accepted
    rfl
  · rfl
  · obtain ⟨c, -, rfl⟩ := mem_oneOf.mp accepted
    rfl

/-- A byte of a rule, whatever comes behind it, unless it starts a frame. -/
theorem isLongest_of_byte {c : BitVec 8} (other : c ≠ ascii '$') {rule : Rule (BitVec 8) Token}
    (matched : firstRule rules [c] = some rule) (rest : List (BitVec 8))
    : IsLongest rules rule [c] rest := by
  refine ⟨List.cons_ne_nil c [], matched, fun longer front more => ?_⟩
  cases found : firstRule rules longer with
  | none => rfl
  | some second =>
      rcases firstRule_cases found with ⟨isFrame, -⟩ | ⟨one, -⟩
      · obtain ⟨tail, rfl, -⟩ := isFrame.dollar
        exact absurd (List.cons_prefix_cons.mp front).1.symm other
      · exact absurd (one ▸ more) (Nat.lt_irrefl _)

/-- The rules on a single byte. -/
theorem firstRule_byte (c : BitVec 8)
    : (c = ascii '\n' ∧ firstRule rules [c] = none)
      ∨ ∃ rule, firstRule rules [c] = some rule ∧ rule.token [c] = byteToken c := by
  have char (d : BitVec 8) : (RegularExpression.char d).rmatch [c] = decide (c = d) := by
    rw [Bool.eq_iff_iff, RegularExpression.rmatch_iff_matches', decide_eq_true_eq]
    exact List.singleton_inj
  have noPacket : packetPattern.rmatch [c] = false := by
    rw [Bool.eq_false_iff]
    intro accepted
    rw [RegularExpression.rmatch_iff_matches', matches_packetPattern] at accepted
    exact absurd accepted.four_le (Nat.not_le.mpr (by simp only [List.length_singleton]; decide))
  have other : (bytesThat fun c => c ≠ ascii '\n').rmatch [c] = decide (c ≠ ascii '\n') := by
    rw [Bool.eq_iff_iff, RegularExpression.rmatch_iff_matches', bytesThat, mem_oneOf]
    simp only [mem_bytesThat, List.singleton_inj, exists_eq_right']
  simp only [firstRule, rules, List.find?_cons, char, noPacket, other]
  by_cases plus : c = ascii '+'
  · subst plus
    exact .inr ⟨_, rfl, rfl⟩
  by_cases minus : c = ascii '-'
  · subst minus
    exact .inr ⟨_, rfl, rfl⟩
  by_cases newline : c = ascii '\n'
  · subst newline
    exact .inl ⟨rfl, rfl⟩
  · simp [plus, minus, newline, byteToken]

/-- The first token of an input that starts with a frame. -/
theorem scanned_frame {s : List (BitVec 8)} (isFrame : IsFrame s) (rest : List (BitVec 8))
    : scanned (s ++ rest) = .packet s :: scanned rest := by
  cases matched : firstRule rules s with
  | none => exact absurd matched (firstRule_of_isFrame isFrame)
  | some rule =>
      have size := isFrame.four_le
      have token : rule.token s = .packet s := by
        rcases firstRule_cases matched with ⟨-, token⟩ | ⟨one, -⟩
        · exact token
        · omega
      have isLongest : IsLongest rules rule s rest := by
        refine ⟨?_, matched, fun longer front more => ?_⟩
        · rintro rfl
          exact absurd size (by decide)
        · cases found : firstRule rules longer with
          | none => rfl
          | some second =>
              rcases firstRule_cases found with ⟨longerFrame, -⟩ | ⟨one, -⟩
              · have same := isFrame.unique longerFrame (List.prefix_append s rest) front
                exact absurd (same ▸ more) (Nat.lt_irrefl _)
              · omega
      exact (tokens_append isLongest).trans (congrArg (· :: scanned rest) token)

/-- The first token of an input that starts with another byte than `$`. -/
theorem scanned_byte {c : BitVec 8} (other : c ≠ ascii '$') (rest : List (BitVec 8))
    : scanned (c :: rest) = byteToken c :: scanned rest := by
  rcases firstRule_byte c with ⟨newline, none⟩ | ⟨rule, matched, token⟩
  · have unmatched : ∀ text, text <+: c :: rest → text ≠ [] → firstRule rules text = .none := by
      intro text front nonempty
      cases found : firstRule rules text with
      | none => rfl
      | some rule =>
          obtain ⟨d, tail, rfl⟩ := List.exists_cons_of_ne_nil nonempty
          obtain rfl := (List.cons_prefix_cons.mp front).1
          rcases firstRule_cases found with ⟨isFrame, -⟩ | ⟨one, -⟩
          · obtain ⟨_, same, -⟩ := isFrame.dollar
            exact absurd (List.cons.inj same).1 other
          · obtain rfl : tail = [] := List.eq_nil_of_length_eq_zero (Nat.succ.inj one)
            exact nomatch none.symm.trans found
    have echoed : byteToken c = .echo c := by
      rw [newline]
      rfl
    exact (tokens_cons unmatched).trans (congrArg (· :: scanned rest) echoed.symm)
  · exact (tokens_append (isLongest_of_byte other matched rest)).trans
      (congrArg (· :: scanned rest) token)

-----------------------------------------------------------------------------------------
-- Streams
-----------------------------------------------------------------------------------------

/-- The tokens are put together of the whole input, by induction on the scan. -/
theorem bytes_of_scans {input : List (BitVec 8)} {found : List Token}
    (scans : Scans rules .echo input found)
    : found.flatMap Token.bytes = input := by
  induction scans with
  | nil => rfl
  | matched isLongest _ ih => rw [List.flatMap_cons, ih, bytes_of_firstRule isLongest.matched]
  | unmatched _ _ ih => rw [List.flatMap_cons, ih]; rfl

/-- Plain tokens are found again, by induction on them. -/
theorem scanned_bytes {found : List Token} (plain : ∀ token ∈ found, token.IsPlain)
    : scanned (found.flatMap Token.bytes) = found := by
  induction found with
  | nil => rfl
  | cons token rest ih =>
      have others := ih fun other member => plain other (List.mem_cons_of_mem token member)
      have byte {c : BitVec 8} (other : c ≠ ascii '$')
          : scanned ((byteToken c).bytes ++ rest.flatMap Token.bytes) = byteToken c :: rest := by
        rw [bytes_byteToken, List.singleton_append, scanned_byte other, others]
      have isPlain := plain token List.mem_cons_self
      rw [List.flatMap_cons]
      cases token with
      | packet yytext => exact (scanned_frame isPlain _).trans (congrArg (_ :: ·) others)
      | ack =>
          obtain ⟨c, other, same⟩ := isPlain
          rw [same]
          exact byte other
      | retransmission =>
          obtain ⟨c, other, same⟩ := isPlain
          rw [same]
          exact byte other
      | character d =>
          obtain ⟨c, other, same⟩ := isPlain
          rw [same]
          exact byte other
      | echo d =>
          obtain ⟨c, other, same⟩ := isPlain
          rw [same]
          exact byte other

/-- The scanner takes frames only for packets. -/
theorem isFrame_of_scanned {input yytext : List (BitVec 8)} (found : .packet yytext ∈ scanned input)
    : IsFrame yytext := by
  have member : yytext ∈ frames input := by
    rw [← packets_of_scans (LongestMatch.scans_tokens input)]
    exact List.mem_filterMap.mpr ⟨.packet yytext, found, rfl⟩
  obtain ⟨here, -, front⟩ := List.mem_filterMap.mp member
  exact ((frameAt_eq_some_iff yytext here).mp front).1

/-- The scanner neither loses nor invents a byte, and finds every stream of frames and single bytes
other than `$` again as it was put together.
-/
theorem scanned_roundTrip
    : (∀ input, (scanned input).flatMap Token.bytes = input)
      ∧ ∀ found : List Token,
          (∀ token ∈ found, token.IsPlain) → scanned (found.flatMap Token.bytes) = found :=
  ⟨fun input => bytes_of_scans (scans_tokens input), fun _ plain => scanned_bytes plain⟩

end Armator.Gdb
