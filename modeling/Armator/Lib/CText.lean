import Mathlib.Algebra.Group.Nat.Defs
import Mathlib.Data.List.GetD

/-! C strings as byte lists, and the numbers that the C library reads from them and prints. -/

namespace CText

/-- The bytes of a literal. -/
def ascii (c : Char) : BitVec 8 :=
  BitVec.ofNat 8 c.toNat

def text (literal : String) : List (BitVec 8) :=
  literal.toList.map ascii

/-- The string that a pointer to index `a` of a memory area points to. Behind its end the area
counts as zero bytes.
-/
def stringAt (area : List (BitVec 8)) (a : Nat) : List (BitVec 8) :=
  (area.drop a).takeWhile fun c => c ≠ 0

/-- The array with bytes written to it from `index` on. -/
def putBytes (area : Nat → BitVec 8) (index : Nat) (bytes : List (BitVec 8)) : Nat → BitVec 8 :=
  fun j => if index ≤ j ∧ j < index + bytes.length then bytes.getD (j - index) 0 else area j

theorem putBytes_nil (area : Nat → BitVec 8) (index : Nat) : putBytes area index [] = area := by
  funext j
  have none : ¬ (index ≤ j ∧ j < index + ([] : List (BitVec 8)).length) := by
    simp only [List.length_nil]
    omega
  rw [putBytes, if_neg none]

/-- Bytes that go on where others end, or over their end. -/
theorem putBytes_append (area : Nat → BitVec 8) (index : Nat)
    (first covered second : List (BitVec 8)) (covers : covered.length ≤ second.length)
    : putBytes (putBytes area index (first ++ covered)) (index + first.length) second
      = putBytes area index (first ++ second) := by
  funext j
  simp only [putBytes, List.length_append]
  by_cases inSecond : index + first.length ≤ j ∧ j < index + first.length + second.length
  · have inside : index ≤ j ∧ j < index + (first.length + second.length) := by omega
    rw [if_pos inSecond, if_pos inside, List.getD_append_right _ _ _ _ (by omega)]
    congr 1
    omega
  · rw [if_neg inSecond]
    by_cases inFirst : index ≤ j ∧ j < index + first.length
    · have inOver : index ≤ j ∧ j < index + (first.length + covered.length) := by omega
      have inside : index ≤ j ∧ j < index + (first.length + second.length) := by omega
      rw [if_pos inOver, if_pos inside, List.getD_append _ _ _ _ (by omega),
        List.getD_append _ _ _ _ (by omega)]
    · have notOver : ¬ (index ≤ j ∧ j < index + (first.length + covered.length)) := by omega
      have outside : ¬ (index ≤ j ∧ j < index + (first.length + second.length)) := by omega
      rw [if_neg notOver, if_neg outside]

/-- Bytes that end where others start. -/
theorem putBytes_prepend (area : Nat → BitVec 8) (index : Nat) (first second : List (BitVec 8))
    : putBytes (putBytes area (index + first.length) second) index first
      = putBytes area index (first ++ second) := by
  funext j
  simp only [putBytes, List.length_append]
  by_cases inFirst : index ≤ j ∧ j < index + first.length
  · have inside : index ≤ j ∧ j < index + (first.length + second.length) := by omega
    rw [if_pos inFirst, if_pos inside, List.getD_append _ _ _ _ (by omega)]
  · rw [if_neg inFirst]
    by_cases inSecond : index + first.length ≤ j ∧ j < index + first.length + second.length
    · have inside : index ≤ j ∧ j < index + (first.length + second.length) := by omega
      rw [if_pos inSecond, if_pos inside, List.getD_append_right _ _ _ _ (by omega)]
      congr 1
      omega
    · have outside : ¬ (index ≤ j ∧ j < index + (first.length + second.length)) := by omega
      rw [if_neg inSecond, if_neg outside]

/-- Written bytes are read back. -/
theorem map_range_putBytes (area : Nat → BitVec 8) (bytes more : List (BitVec 8))
    : (List.range bytes.length).map (putBytes area 0 (bytes ++ more)) = bytes := by
  apply List.ext_getElem
  · simp
  · intro i _ inside
    have covered : 0 ≤ i ∧ i < 0 + (bytes ++ more).length := by
      rw [List.length_append]
      omega
    rw [List.getElem_map, List.getElem_range, putBytes, if_pos covered, Nat.sub_zero,
      List.getD_append _ _ _ _ inside, List.getD_eq_getElem _ _ inside]

/-- The index of the first byte `c` of a string, as `index` finds it. -/
def indexOf (s : List (BitVec 8)) (c : BitVec 8) : Option Nat :=
  s.findIdx? fun other => other = c

-----------------------------------------------------------------------------------------
-- Numbers
-----------------------------------------------------------------------------------------

/-- `isspace` in the C locale. -/
def isSpace (c : BitVec 8) : Bool :=
  c = ascii ' ' ∨ (9 ≤ c.toNat ∧ c.toNat ≤ 13)

def decimalDigit (c : BitVec 8) : Option Nat :=
  if '0'.toNat ≤ c.toNat ∧ c.toNat ≤ '9'.toNat then some (c.toNat - '0'.toNat) else none

def hexDigit (c : BitVec 8) : Option Nat :=
  if '0'.toNat ≤ c.toNat ∧ c.toNat ≤ '9'.toNat then some (c.toNat - '0'.toNat)
  else if 'a'.toNat ≤ c.toNat ∧ c.toNat ≤ 'f'.toNat then some (c.toNat - 'a'.toNat + 10)
  else if 'A'.toNat ≤ c.toNat ∧ c.toNat ≤ 'F'.toNat then some (c.toNat - 'A'.toNat + 10)
  else none

/-- The value of the leading digits, on top of `value`, and what follows them. -/
def readDigits (digit : BitVec 8 → Option Nat) (base : Nat)
    : Nat → List (BitVec 8) → Nat × List (BitVec 8)
  | value, [] => (value, [])
  | value, c :: rest =>
      match digit c with
      | some d => readDigits digit base (value * base + d) rest
      | none => (value, c :: rest)

/-- The number at the start of a text, which must start with a digit, and what follows it. -/
def readNumber (digit : BitVec 8 → Option Nat) (base : Nat) (s : List (BitVec 8))
    : Option (Nat × List (BitVec 8)) :=
  match s with
  | [] => none
  | c :: _ => if (digit c).isSome then some (readDigits digit base 0 s) else none

/-- An optional sign. -/
def readSign (s : List (BitVec 8)) : Bool × List (BitVec 8) :=
  match s with
  | c :: rest =>
      if c = ascii '-' then (true, rest)
      else if c = ascii '+' then (false, rest)
      else (false, s)
  | [] => (false, [])

def signed (negative : Bool) (n : Nat) : Int :=
  if negative then -n else n

/-- What `%x` matches behind the white space: a sign, `0x` and hexadecimal digits. A lone `0x` is no
match, as the standard has it; older versions of glibc read it as 0.
-/
def hexItem (s : List (BitVec 8)) : Option (Int × List (BitVec 8)) :=
  let (negative, s) := readSign s
  let digits :=
    match s with
    | zero :: x :: rest =>
        if zero = ascii '0' ∧ (x = ascii 'x' ∨ x = ascii 'X') then rest else s
    | _ => s
  (readNumber hexDigit 16 digits).map fun (n, rest) => (signed negative n, rest)

/-- The conversion `%x`: the number, if there is one, and what follows it. -/
def scanHex (s : List (BitVec 8)) : Option (Int × List (BitVec 8)) :=
  hexItem (s.dropWhile isSpace)

/-- The conversion `%02x`: `%x` of two bytes at most. -/
def scanHex2 (s : List (BitVec 8)) : Option Int :=
  (hexItem ((s.dropWhile isSpace).take 2)).map Prod.fst

/-- The conversions of `%x,%x`. -/
def scanHexPair (s : List (BitVec 8)) : Option Int × Option Int :=
  match scanHex s with
  | none => (none, none)
  | some (first, []) => (some first, none)
  | some (first, c :: rest) =>
      if c = ascii ',' then (some first, (scanHex rest).map Prod.fst) else (some first, none)

/-- The number that `atoi` reads, if there is one. -/
def scanInt (s : List (BitVec 8)) : Option Int :=
  let (negative, s) := readSign (s.dropWhile isSpace)
  (readNumber decimalDigit 10 s).map fun (n, _) => signed negative n

/-- A hexadecimal digit as `printf` prints it. -/
def printDigit (d : Nat) : BitVec 8 :=
  if d < 10 then BitVec.ofNat 8 ('0'.toNat + d) else BitVec.ofNat 8 ('a'.toNat + (d - 10))

/-- `%02x` of a byte. -/
def printHex2 (b : BitVec 8) : List (BitVec 8) :=
  [printDigit (b.toNat / 16), printDigit (b.toNat % 16)]

-----------------------------------------------------------------------------------------
-- Hexadecimal texts
-----------------------------------------------------------------------------------------

/-- One or more hexadecimal digits. -/
def IsHex (s : List (BitVec 8)) : Prop :=
  s ≠ [] ∧ ∀ c ∈ s, (hexDigit c).isSome

instance (s : List (BitVec 8)) : Decidable (IsHex s) :=
  inferInstanceAs (Decidable (_ ∧ _))

/-- The number that a hexadecimal text stands for. -/
def hexValue (s : List (BitVec 8)) : Nat :=
  (readDigits hexDigit 16 0 s).1

/-- A hexadecimal digit is no other character of a number. -/
theorem hexDigit_plain
    : ∀ c : BitVec 8, (hexDigit c).isSome
        → isSpace c = false ∧ c ≠ ascii '-' ∧ c ≠ ascii '+' ∧ c ≠ ascii 'x' ∧ c ≠ ascii 'X'
          ∧ c ≠ 0 := by
  decide +kernel

theorem hexDigit_lt {c : BitVec 8} {d : Nat} (digit : hexDigit c = some d) : d < 16 := by
  have all : ∀ c : BitVec 8, ∀ d ∈ hexDigit c, d < 16 := by decide +kernel
  exact all c d digit

/-- Reading digits stops behind the last one, by induction on them. -/
theorem readDigits_append (digit : BitVec 8 → Option Nat) (base value : Nat)
    (digits rest : List (BitVec 8)) (all : ∀ c ∈ digits, (digit c).isSome)
    (ends : ∀ c, rest.head? = some c → digit c = none)
    : readDigits digit base value (digits ++ rest)
      = ((readDigits digit base value digits).1, rest) := by
  induction digits generalizing value with
  | nil =>
      cases rest with
      | nil => rfl
      | cons c rest => simp only [List.nil_append, readDigits, ends c rfl]
  | cons c digits ih =>
      obtain ⟨d, digit⟩ := Option.isSome_iff_exists.mp (all c List.mem_cons_self)
      simp only [List.cons_append, readDigits, digit]
      exact ih _ fun c member => all c (List.mem_cons_of_mem _ member)

/-- `%x` reads a hexadecimal text to its end. -/
theorem scanHex_append (digits rest : List (BitVec 8)) (hex : IsHex digits)
    (ends : ∀ c, rest.head? = some c → hexDigit c = none ∧ c ≠ ascii 'x' ∧ c ≠ ascii 'X')
    : scanHex (digits ++ rest) = some ((hexValue digits : Int), rest) := by
  obtain ⟨nonempty, all⟩ := hex
  cases digits with
  | nil => exact absurd rfl nonempty
  | cons c digits =>
      have digit := all c List.mem_cons_self
      obtain ⟨notSpace, notMinus, notPlus, -⟩ := hexDigit_plain c digit
      have read := readDigits_append hexDigit 16 0 (c :: digits) rest all fun d first =>
        (ends d first).1
      have second (x : BitVec 8) (next : (digits ++ rest).head? = some x)
          : ¬ (x = ascii 'x' ∨ x = ascii 'X') := by
        cases digits with
        | nil => exact not_or.mpr (ends x next).2
        | cons d digits =>
            obtain rfl : d = x := Option.some.inj next
            have plain := hexDigit_plain d (all d (by simp))
            exact not_or.mpr ⟨plain.2.2.2.1, plain.2.2.2.2.1⟩
      have number : readNumber hexDigit 16 (c :: (digits ++ rest))
          = some (hexValue (c :: digits), rest) := by
        rw [readNumber, if_pos digit, ← List.cons_append, read, hexValue]
      have unsigned : readSign (c :: (digits ++ rest)) = (false, c :: (digits ++ rest)) := by
        simp only [readSign, notMinus, notPlus, if_false]
      have start : (c :: (digits ++ rest)).dropWhile isSpace = c :: (digits ++ rest) := by
        rw [List.dropWhile_cons, notSpace, if_neg Bool.false_ne_true]
      rw [List.cons_append, scanHex, start, hexItem, unsigned]
      cases tail : digits ++ rest with
      | nil =>
          rw [tail] at number
          simp only [number, Option.map_some, signed, Bool.false_eq_true, if_false]
      | cons x more =>
          have plain := second x (by rw [tail]; rfl)
          rw [tail] at number
          simp only [plain, and_false, if_false, number, Option.map_some, signed,
            Bool.false_eq_true]

theorem scanHex_of_isHex {digits : List (BitVec 8)} (hex : IsHex digits)
    : scanHex digits = some ((hexValue digits : Int), []) := by
  have whole := scanHex_append digits [] hex fun c first => absurd first (by simp)
  rwa [List.append_nil] at whole

/-- `%x,%x` reads two hexadecimal texts. -/
theorem scanHexPair_append {first second : List (BitVec 8)} (isFirst : IsHex first)
    (isSecond : IsHex second) (rest : List (BitVec 8))
    (ends : ∀ c, rest.head? = some c → hexDigit c = none ∧ c ≠ ascii 'x' ∧ c ≠ ascii 'X')
    : scanHexPair (first ++ ascii ',' :: (second ++ rest))
      = (some (hexValue first : Int), some (hexValue second : Int)) := by
  have comma : scanHex (first ++ ascii ',' :: (second ++ rest))
      = some ((hexValue first : Int), ascii ',' :: (second ++ rest)) := by
    refine scanHex_append first _ isFirst fun c head => ?_
    obtain rfl : ascii ',' = c := Option.some.inj head
    decide
  have number := scanHex_append second rest isSecond ends
  simp only [scanHexPair, comma, number, if_true, Option.map_some]

/-- Further digits only make a number larger, by induction on them. -/
theorem le_readDigits (digit : BitVec 8 → Option Nat) {base : Nat} (positive : 0 < base)
    (value : Nat) (s : List (BitVec 8))
    : value ≤ (readDigits digit base value s).1 := by
  induction s generalizing value with
  | nil => exact Nat.le_refl value
  | cons c rest ih =>
      rw [readDigits]
      cases digit c with
      | none => exact Nat.le_refl value
      | some d =>
          have step : value ≤ value * base + d :=
            Nat.le_trans (Nat.le_mul_of_pos_right value positive) (Nat.le_add_right _ _)
          exact Nat.le_trans step (ih (value * base + d))

/-- The bound of a number of so many digits, by induction on them. -/
theorem readDigits_lt (value : Nat) (s : List (BitVec 8))
    : (readDigits hexDigit 16 value s).1 < (value + 1) * 16 ^ s.length := by
  induction s generalizing value with
  | nil =>
      rw [readDigits, List.length_nil, Nat.pow_zero, Nat.mul_one]
      exact Nat.lt_succ_self value
  | cons c rest ih =>
      have power : 0 < 16 ^ rest.length := Nat.pow_pos (by decide)
      rw [readDigits, List.length_cons, Nat.pow_succ]
      cases digit : hexDigit c with
      | none =>
          have one : 1 ≤ 16 ^ rest.length * 16 := by omega
          exact Nat.lt_of_lt_of_le (Nat.lt_succ_self value) (Nat.le_mul_of_pos_right _ one)
      | some d =>
          have low := hexDigit_lt digit
          calc (readDigits hexDigit 16 (value * 16 + d) rest).1
              < (value * 16 + d + 1) * 16 ^ rest.length := ih (value * 16 + d)
            _ ≤ (value + 1) * 16 * 16 ^ rest.length := Nat.mul_le_mul_right _ (by omega)
            _ = (value + 1) * (16 ^ rest.length * 16) := by
              rw [Nat.mul_assoc, Nat.mul_comm 16]

theorem isHex_pair {c d : BitVec 8} (first : (hexDigit c).isSome) (second : (hexDigit d).isSome)
    : IsHex [c, d] := by
  refine ⟨List.cons_ne_nil _ _, fun e member => ?_⟩
  simp only [List.mem_cons, List.not_mem_nil, or_false] at member
  rcases member with rfl | rfl
  · exact first
  · exact second

/-- `%02x` reads two digits. -/
theorem scanHex2_of_digits {c d : BitVec 8} (first : (hexDigit c).isSome)
    (second : (hexDigit d).isSome) (rest : List (BitVec 8))
    : scanHex2 (c :: d :: rest) = some (hexValue [c, d] : Int) := by
  have notSpace := (hexDigit_plain c first).1
  have start (s : List (BitVec 8)) : (c :: s).dropWhile isSpace = c :: s := by
    rw [List.dropWhile_cons, notSpace, if_neg Bool.false_ne_true]
  have number := scanHex_of_isHex (isHex_pair first second)
  rw [scanHex, start] at number
  rw [scanHex2, start, List.take_succ_cons, List.take_succ_cons, List.take_zero, number,
    Option.map_some]

theorem hexDigit_printDigit {d : Nat} (low : d < 16) : hexDigit (printDigit d) = some d := by
  have all : ∀ d < 16, hexDigit (printDigit d) = some d := by decide +kernel
  exact all d low

/-- A printed byte stands for itself. -/
theorem hexValue_printHex2 (b : BitVec 8) : hexValue (printHex2 b) = b.toNat := by
  have bound := b.isLt
  have high : b.toNat / 16 < 16 := by omega
  have low : b.toNat % 16 < 16 := by omega
  simp only [hexValue, printHex2, readDigits, hexDigit_printDigit high, hexDigit_printDigit low]
  omega

theorem exists_of_mem_printHex2 {b c : BitVec 8} (member : c ∈ printHex2 b)
    : ∃ d < 16, c = printDigit d := by
  have bound := b.isLt
  simp only [printHex2, List.mem_cons, List.not_mem_nil, or_false] at member
  rcases member with rfl | rfl
  · exact ⟨_, by omega, rfl⟩
  · exact ⟨_, by omega, rfl⟩

theorem hexDigit_printHex2 (b : BitVec 8) : ∀ c ∈ printHex2 b, (hexDigit c).isSome := by
  intro c member
  obtain ⟨d, low, rfl⟩ := exists_of_mem_printHex2 member
  rw [hexDigit_printDigit low]
  rfl

-----------------------------------------------------------------------------------------
-- Hexadecimal texts that are read as decimal ones
-----------------------------------------------------------------------------------------

theorem hexDigit_of_decimalDigit {c : BitVec 8} {d : Nat} (digit : decimalDigit c = some d)
    : hexDigit c = some d := by
  rw [decimalDigit] at digit
  split at digit
  · next range => rw [hexDigit, if_pos range, digit]
  · cases digit

theorem decimalDigit_lt {c : BitVec 8} {d : Nat} (digit : decimalDigit c = some d) : d < 10 := by
  have all : ∀ c : BitVec 8, ∀ d ∈ decimalDigit c, d < 10 := by decide +kernel
  exact all c d digit

/-- A digit of 10 or more is none of a decimal number. -/
theorem ten_le_of_not_decimalDigit
    : ∀ c : BitVec 8, decimalDigit c = none → ∀ d ∈ hexDigit c, 10 ≤ d := by
  decide +kernel

/-- A number read as a decimal one is at most the hexadecimal one, by induction on the text. -/
theorem readDigits_decimal_le (s : List (BitVec 8)) {value other : Nat} (le : value ≤ other)
    : (readDigits decimalDigit 10 value s).1 ≤ (readDigits hexDigit 16 other s).1 := by
  induction s generalizing value other with
  | nil => exact le
  | cons c rest ih =>
      cases digit : decimalDigit c with
      | none =>
          have stopped : (readDigits decimalDigit 10 value (c :: rest)).1 = value := by
            rw [readDigits, digit]
          rw [stopped]
          exact Nat.le_trans le (le_readDigits hexDigit (by decide) other (c :: rest))
      | some d =>
          rw [readDigits, readDigits, digit, hexDigit_of_decimalDigit digit]
          exact ih (by omega)

/-- The decimal reading of a hexadecimal text for a number below 16: a letter ends it. By induction
on the zeros in front.
-/
theorem readDigits_decimal_of_lt {s : List (BitVec 8)} (hex : ∀ c ∈ s, (hexDigit c).isSome)
    (low : (readDigits hexDigit 16 0 s).1 < 16)
    : (readDigits decimalDigit 10 0 s).1
      = if (readDigits hexDigit 16 0 s).1 < 10 then (readDigits hexDigit 16 0 s).1 else 0 := by
  induction s with
  | nil => rfl
  | cons c rest ih =>
      obtain ⟨d, digit⟩ := Option.isSome_iff_exists.mp (hex c List.mem_cons_self)
      have step
          : readDigits hexDigit 16 0 (c :: rest) = readDigits hexDigit 16 (0 * 16 + d) rest := by
        rw [readDigits, digit]
      rw [step] at low ⊢
      cases decimal : decimalDigit c with
      | none =>
          have large := ten_le_of_not_decimalDigit c decimal d digit
          have more := le_readDigits hexDigit (by decide : 0 < 16) (0 * 16 + d) rest
          have stopped : (readDigits decimalDigit 10 0 (c :: rest)).1 = 0 := by
            rw [readDigits, decimal]
          rw [stopped, if_neg (by omega)]
      | some e =>
          obtain rfl : d = e :=
            Option.some.inj (digit.symm.trans (hexDigit_of_decimalDigit decimal))
          rw [readDigits, decimal]
          by_cases zero : d = 0
          · subst zero
            exact ih (fun c member => hex c (List.mem_cons_of_mem _ member)) low
          · cases rest with
            | nil =>
                have small := decimalDigit_lt decimal
                simp only [readDigits, Nat.zero_mul, Nat.zero_add, small, if_true]
            | cons e more =>
                -- a second digit makes the number 16 or more
                obtain ⟨f, next⟩ := Option.isSome_iff_exists.mp (hex e (by simp))
                have le := le_readDigits hexDigit (by decide : 0 < 16) ((0 * 16 + d) * 16 + f) more
                simp only [readDigits, next] at low
                omega

/-- `atoi` reads the decimal digits at the start of a hexadecimal text. -/
theorem scanInt_of_isHex {c : BitVec 8} {rest : List (BitVec 8)} (hex : IsHex (c :: rest))
    : scanInt (c :: rest)
      = if (decimalDigit c).isSome then
          some ((readDigits decimalDigit 10 0 (c :: rest)).1 : Int)
        else none := by
  obtain ⟨notSpace, notMinus, notPlus, -⟩ := hexDigit_plain c (hex.2 c List.mem_cons_self)
  have start : (c :: rest).dropWhile isSpace = c :: rest := by
    rw [List.dropWhile_cons, notSpace, if_neg Bool.false_ne_true]
  have unsigned : readSign (c :: rest) = (false, c :: rest) := by
    simp only [readSign, notMinus, notPlus, if_false]
  simp only [scanInt, start, unsigned, readNumber]
  split
  · rw [Option.map_some, signed, if_neg Bool.false_ne_true]
  · rfl

/-- A hexadecimal text of 0 is one for `atoi`, too. -/
theorem scanInt_of_zero {s : List (BitVec 8)} (hex : IsHex s) (zero : hexValue s = 0)
    : scanInt s = some 0 := by
  cases s with
  | nil => exact absurd rfl hex.1
  | cons c rest =>
      obtain ⟨d, digit⟩ := Option.isSome_iff_exists.mp (hex.2 c List.mem_cons_self)
      have small : d = 0 := by
        have le := le_readDigits hexDigit (by decide : 0 < 16) (0 * 16 + d) rest
        rw [hexValue, readDigits, digit] at zero
        simp only [zero] at le
        omega
      have decimal : (decimalDigit c).isSome := by
        cases none : decimalDigit c with
        | some e => rfl
        | none =>
            have large := ten_le_of_not_decimalDigit c none d digit
            omega
      have le := readDigits_decimal_le (c :: rest) (Nat.le_refl 0)
      rw [← hexValue, zero] at le
      rw [scanInt_of_isHex hex, if_pos decimal, Nat.le_zero.mp le]
      rfl

-----------------------------------------------------------------------------------------
-- Strings in memory
-----------------------------------------------------------------------------------------

/-- The first byte `c` of a string is found. -/
theorem indexOf_append {before : List (BitVec 8)} {c : BitVec 8} (first : ∀ d ∈ before, d ≠ c)
    (rest : List (BitVec 8))
    : indexOf (before ++ c :: rest) c = some before.length := by
  have absent : before.findIdx? (fun d => d = c) = none := by
    rw [List.findIdx?_eq_none_iff]
    exact fun d member => decide_eq_false (first d member)
  have here : (c :: rest).findIdx? (fun d => d = c) = some 0 := by
    rw [List.findIdx?_cons, if_pos (decide_eq_true rfl)]
  rw [indexOf, List.findIdx?_append, absent, here, Option.none_or, Option.map_some, Nat.zero_add]

/-- A string ends at the first NUL. -/
theorem stringAt_append (before s more : List (BitVec 8)) (noNul : ∀ c ∈ s, c ≠ 0)
    : stringAt (before ++ (s ++ 0 :: more)) before.length = s := by
  have kept : ∀ c ∈ s, decide (c ≠ 0) = true := fun c member => decide_eq_true (noNul c member)
  rw [stringAt, List.drop_left, List.takeWhile_append_of_pos kept, List.takeWhile_cons_of_neg (by simp),
    List.append_nil]

end CText
