import Mathlib.Computability.RegularExpressions

/-! Scanners that split a text at the longest match of any rule, and by the first rule among equal
ones. A symbol at which no rule matches is a token of its own.
-/

namespace LongestMatch

open RegularExpression

variable {α τ : Type}

/-- One symbol of a class. -/
def oneOf (symbols : List α) : RegularExpression α :=
  symbols.foldr (fun c others => char c + others) 0

theorem mem_oneOf {symbols : List α} {text : List α}
    : text ∈ (oneOf symbols).matches' ↔ ∃ c ∈ symbols, text = [c] := by
  induction symbols with
  | nil => simp [oneOf, Language.notMem_zero]
  | cons c rest ih =>
      have first : text ∈ (char c).matches' ↔ text = [c] := Set.mem_singleton_iff
      rw [oneOf, List.foldr_cons, matches'_add, Language.mem_add, first, List.exists_mem_cons_iff]
      exact or_congr_right ih

/-- Any number of symbols of a class. -/
theorem mem_star_oneOf {symbols : List α} {text : List α}
    : text ∈ (oneOf symbols).star.matches' ↔ ∀ c ∈ text, c ∈ symbols := by
  rw [matches'_star, Language.mem_kstar]
  constructor
  · rintro ⟨parts, rfl, all⟩ c member
    obtain ⟨part, inParts, inPart⟩ := List.mem_flatten.mp member
    obtain ⟨d, inClass, rfl⟩ := mem_oneOf.mp (all part inParts)
    rwa [List.mem_singleton.mp inPart]
  · intro all
    refine ⟨text.map fun c => [c], ?_, ?_⟩
    · rw [← List.flatMap_def, List.flatMap_singleton']
    · intro part member
      obtain ⟨c, inText, rfl⟩ := List.mem_map.mp member
      exact mem_oneOf.mpr ⟨c, all c inText, rfl⟩

/-- A pattern, and the token that a text with this pattern makes. -/
structure Rule (α τ : Type) where
  pattern : RegularExpression α
  token : List α → τ

section Scanning

variable [DecidableEq α] (rules : List (Rule α τ)) (default : α → τ)

/-- The first rule that a text matches. -/
def firstRule (text : List α) : Option (Rule α τ) :=
  rules.find? fun rule => rule.pattern.rmatch text

/-- The longest match of at most `n` symbols: its rule and its length. -/
def longest (input : List α) : Nat → Option (Rule α τ × Nat)
  | 0 => none
  | n + 1 =>
      match firstRule rules (input.take (n + 1)) with
      | some rule => some (rule, n + 1)
      | none => longest input n

/-- The tokens of a text, of which the first `fuel` ones are looked for. -/
def tokensFrom : Nat → List α → List τ
  | 0, _ => []
  | _ + 1, [] => []
  | fuel + 1, c :: rest =>
      match longest rules (c :: rest) (rest.length + 1) with
      | some (rule, n) => rule.token ((c :: rest).take n) :: tokensFrom fuel ((c :: rest).drop n)
      | none => default c :: tokensFrom fuel rest

/-- The tokens of a text: there are at most as many as it has symbols. -/
def tokens (input : List α) : List τ :=
  tokensFrom rules default input.length input

/-- The rule and the text in front of `rest` that are matched there. -/
structure IsLongest (rule : Rule α τ) (text rest : List α) : Prop where
  nonempty : text ≠ []
  matched : firstRule rules text = some rule
  maximal : ∀ longer, longer <+: text ++ rest → text.length < longer.length
    → firstRule rules longer = none

/-- The division of a text into longest matches. -/
inductive Scans : List α → List τ → Prop
  | nil : Scans [] []
  | matched {rule : Rule α τ} {text rest : List α} {others : List τ}
      (isLongest : IsLongest rules rule text rest) (scanned : Scans rest others)
      : Scans (text ++ rest) (rule.token text :: others)
  | unmatched {c : α} {rest : List α} {others : List τ}
      (none : ∀ text, text <+: c :: rest → text ≠ [] → firstRule rules text = none)
      (scanned : Scans rest others)
      : Scans (c :: rest) (default c :: others)

variable {rules default}

/-- A longest match, by induction on the bound. -/
theorem of_longest_eq_some {input : List α} {n m : Nat} {rule : Rule α τ}
    (found : longest rules input n = some (rule, m))
    : 0 < m ∧ m ≤ n ∧ firstRule rules (input.take m) = some rule
      ∧ ∀ k, m < k → k ≤ n → firstRule rules (input.take k) = none := by
  induction n with
  | zero => cases found
  | succ n ih =>
      rw [longest] at found
      cases first : firstRule rules (input.take (n + 1)) with
      | some other =>
          rw [first] at found
          obtain ⟨rfl, rfl⟩ := Prod.mk.inj (Option.some.inj found)
          exact ⟨Nat.succ_pos n, Nat.le_refl _, first, fun k more less => by omega⟩
      | none =>
          rw [first] at found
          obtain ⟨positive, bound, matched, maximal⟩ := ih found
          refine ⟨positive, Nat.le_succ_of_le bound, matched, fun k more less => ?_⟩
          rcases Nat.lt_succ_iff_lt_or_eq.mp (Nat.lt_succ_of_le less) with before | rfl
          · exact maximal k more (Nat.le_of_lt_succ before)
          · exact first

theorem of_longest_eq_none {input : List α} {n : Nat} (found : longest rules input n = none)
    : ∀ k, 0 < k → k ≤ n → firstRule rules (input.take k) = none := by
  induction n with
  | zero => exact fun k positive bound => absurd positive (Nat.not_lt.mpr bound)
  | succ n ih =>
      intro k positive bound
      rw [longest] at found
      cases first : firstRule rules (input.take (n + 1)) with
      | some other =>
          rw [first] at found
          cases found
      | none =>
          rw [first] at found
          rcases Nat.lt_succ_iff_lt_or_eq.mp (Nat.lt_succ_of_le bound) with before | rfl
          · exact ih found k positive (Nat.le_of_lt_succ before)
          · exact first

/-- The tokens are those of the longest matches, by induction on the fuel. -/
theorem scans_tokensFrom (fuel : Nat) (input : List α) (enough : input.length ≤ fuel)
    : Scans rules default input (tokensFrom rules default fuel input) := by
  induction fuel generalizing input with
  | zero =>
      obtain rfl := List.eq_nil_of_length_eq_zero (Nat.le_zero.mp enough)
      exact .nil
  | succ fuel ih =>
      cases input with
      | nil => exact .nil
      | cons c rest =>
          have shorter : rest.length ≤ fuel := Nat.le_of_succ_le_succ enough
          cases found : longest rules (c :: rest) (rest.length + 1) with
          | some best =>
              obtain ⟨rule, n⟩ := best
              obtain ⟨positive, bound, matched, maximal⟩ := of_longest_eq_some found
              have length : ((c :: rest).take n).length = n := by
                rw [List.length_take, List.length_cons, Nat.min_eq_left bound]
              have isLongest : IsLongest rules rule ((c :: rest).take n) ((c :: rest).drop n) := by
                refine ⟨?_, matched, fun longer front more => ?_⟩
                · intro empty
                  rw [empty] at length
                  exact absurd length (Nat.ne_of_lt positive)
                · rw [List.take_append_drop] at front
                  rw [length] at more
                  rw [List.prefix_iff_eq_take.mp front]
                  exact maximal _ more front.length_le
              have fewer : ((c :: rest).drop n).length ≤ fuel := by
                rw [List.length_drop, List.length_cons]
                omega
              have scanned := ih ((c :: rest).drop n) fewer
              have whole := Scans.matched isLongest scanned
              rw [List.take_append_drop] at whole
              rw [tokensFrom, found]
              exact whole
          | none =>
              have unmatched := of_longest_eq_none found
              rw [tokensFrom, found]
              refine .unmatched (fun text front nonempty => ?_) (ih rest shorter)
              rw [List.prefix_iff_eq_take.mp front]
              exact unmatched _ (List.length_pos_of_ne_nil nonempty) front.length_le

theorem scans_tokens (input : List α) : Scans rules default input (tokens rules default input) :=
  scans_tokensFrom input.length input (Nat.le_refl _)

/-- The first token of a division, and the division of the rest. -/
theorem Scans.first {input : List α} {found : List τ} (scans : Scans rules default input found)
    : input = [] ∧ found = []
      ∨ (∃ rule text rest others,
          input = text ++ rest ∧ found = rule.token text :: others
          ∧ IsLongest rules rule text rest ∧ Scans rules default rest others)
      ∨ ∃ c rest others,
          input = c :: rest ∧ found = default c :: others
          ∧ (∀ text, text <+: c :: rest → text ≠ [] → firstRule rules text = none)
          ∧ Scans rules default rest others := by
  cases scans with
  | nil => exact .inl ⟨rfl, rfl⟩
  | @matched rule text rest others isLongest scanned =>
      exact .inr (.inl ⟨rule, text, rest, others, rfl, rfl, isLongest, scanned⟩)
  | @unmatched c rest others none scanned =>
      exact .inr (.inr ⟨c, rest, others, rfl, rfl, none, scanned⟩)

/-- Two longest matches at one place are the same. -/
theorem IsLongest.unique {rule other : Rule α τ} {text text' rest rest' : List α}
    (first : IsLongest rules rule text rest) (second : IsLongest rules other text' rest')
    (same : text ++ rest = text' ++ rest')
    : rule = other ∧ text = text' ∧ rest = rest' := by
  have front : text <+: text' ++ rest' := same ▸ List.prefix_append text rest
  have front' : text' <+: text ++ rest := same ▸ List.prefix_append text' rest'
  have notLonger : ¬ text.length < text'.length := fun longer =>
    nomatch (first.maximal text' front' longer).symm.trans second.matched
  have notShorter : ¬ text'.length < text.length := fun longer =>
    nomatch (second.maximal text front longer).symm.trans first.matched
  obtain ⟨rfl, rfl⟩ := List.append_inj same (by omega)
  exact ⟨Option.some.inj (first.matched.symm.trans second.matched), rfl, rfl⟩

/-- A text has one division, by induction on it. -/
theorem Scans.unique {input : List α} {found other : List τ} (scans : Scans rules default input found)
    (second : Scans rules default input other)
    : found = other := by
  induction scans generalizing other with
  | nil =>
      rcases second.first with ⟨-, rfl⟩ | ⟨rule, text, rest, others, empty, -, isLongest, -⟩
        | ⟨c, rest, others, empty, -, -, -⟩
      · rfl
      · exact absurd (List.append_eq_nil_iff.mp empty.symm).1 isLongest.nonempty
      · exact absurd empty (List.cons_ne_nil c rest).symm
  | @matched rule text rest others isLongest _ ih =>
      rcases second.first
        with ⟨empty, -⟩ | ⟨rule', text', rest', others', same, rfl, isLongest', scanned⟩
        | ⟨c, rest', others', same, -, none, -⟩
      · exact absurd (List.append_eq_nil_iff.mp empty).1 isLongest.nonempty
      · obtain ⟨rfl, rfl, rfl⟩ := isLongest.unique isLongest' same
        rw [ih scanned]
      · have unmatched := none text (same ▸ List.prefix_append text rest) isLongest.nonempty
        exact nomatch unmatched.symm.trans isLongest.matched
  | @unmatched c rest others none _ ih =>
      rcases second.first with ⟨empty, -⟩ | ⟨rule, text, rest', others', same, -, isLongest, -⟩
        | ⟨d, rest', others', same, rfl, -, scanned⟩
      · exact absurd empty (List.cons_ne_nil c rest)
      · have unmatched := none text (same ▸ List.prefix_append text rest') isLongest.nonempty
        exact nomatch unmatched.symm.trans isLongest.matched
      · obtain ⟨rfl, rfl⟩ := List.cons.inj same
        rw [ih scanned]

/-- A longest match at the start is the first token. -/
theorem tokens_append {rule : Rule α τ} {text rest : List α}
    (isLongest : IsLongest rules rule text rest)
    : tokens rules default (text ++ rest) = rule.token text :: tokens rules default rest :=
  (scans_tokens (text ++ rest)).unique (.matched isLongest (scans_tokens rest))

/-- A symbol at which nothing is matched is the first token. -/
theorem tokens_cons {c : α} {rest : List α}
    (none : ∀ text, text <+: c :: rest → text ≠ [] → firstRule rules text = none)
    : tokens rules default (c :: rest) = default c :: tokens rules default rest :=
  (scans_tokens (c :: rest)).unique (.unmatched none (scans_tokens rest))

end Scanning

end LongestMatch
