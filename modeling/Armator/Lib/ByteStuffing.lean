import Mathlib.Data.List.GetD

/-! Byte stuffing: special bytes of a text are sent as an escape byte and the byte changed by a
mask.
-/

namespace ByteStuffing

/-- An encoding of a text. Every special byte is escaped, and others may be. -/
inductive Encodes (escape mask : BitVec 8) (special : BitVec 8 → Prop)
    : List (BitVec 8) → List (BitVec 8) → Prop where
  | nil : Encodes escape mask special [] []
  | plain {c : BitVec 8} {encoding data : List (BitVec 8)} (ordinary : ¬ special c)
      (rest : Encodes escape mask special encoding data)
      : Encodes escape mask special (c :: encoding) (c :: data)
  | escaped {c : BitVec 8} {encoding data : List (BitVec 8)}
      (rest : Encodes escape mask special encoding data)
      : Encodes escape mask special (escape :: (c ^^^ mask) :: encoding) (c :: data)

/-- The byte that the start of a received text stands for, and what follows it. -/
def next (escape mask : BitVec 8) : List (BitVec 8) → Option (BitVec 8 × List (BitVec 8))
  | [] => none
  | c :: rest =>
      if c = escape then rest.head?.map fun d => (d ^^^ mask, rest.tail) else some (c, rest)

/-- The first `n` bytes that a received text stands for, and what follows them. -/
def decode (escape mask : BitVec 8)
    : Nat → List (BitVec 8) → Option (List (BitVec 8) × List (BitVec 8))
  | 0, s => some ([], s)
  | n + 1, s =>
      match next escape mask s with
      | none => none
      | some (c, rest) => (decode escape mask n rest).map fun (data, rest) => (c :: data, rest)

variable {escape mask : BitVec 8}

theorem next_plain {c : BitVec 8} (ordinary : c ≠ escape) (rest : List (BitVec 8))
    : next escape mask (c :: rest) = some (c, rest) :=
  if_neg ordinary

theorem next_escape (d : BitVec 8) (rest : List (BitVec 8))
    : next escape mask (escape :: d :: rest) = some (d ^^^ mask, rest) :=
  if_pos rfl

theorem decode_succ {s rest : List (BitVec 8)} {c : BitVec 8}
    (first : next escape mask s = some (c, rest)) (n : Nat)
    : decode escape mask (n + 1) s
      = (decode escape mask n rest).map fun (data, rest) => (c :: data, rest) := by
  rw [decode, first]

/-- The first of several decoded bytes. -/
theorem decode_succ_eq_some {n : Nat} {s data rest : List (BitVec 8)}
    (decoded : decode escape mask (n + 1) s = some (data, rest))
    : ∃ c between later,
        next escape mask s = some (c, between) ∧ data = c :: later
        ∧ decode escape mask n between = some (later, rest) := by
  cases first : next escape mask s with
  | none =>
      rw [decode, first] at decoded
      cases decoded
  | some found =>
      obtain ⟨c, between⟩ := found
      rw [decode_succ first] at decoded
      obtain ⟨⟨later, left⟩, rest, same⟩ := Option.map_eq_some_iff.mp decoded
      obtain ⟨rfl, rfl⟩ := Prod.mk.inj same
      exact ⟨c, between, later, rfl, rfl, rest⟩

/-- Decoding gives as many bytes as asked for, by induction on their number. -/
theorem length_of_decode {n : Nat} {s data rest : List (BitVec 8)}
    (decoded : decode escape mask n s = some (data, rest))
    : data.length = n := by
  induction n generalizing s data with
  | zero =>
      obtain ⟨rfl, -⟩ := Prod.mk.inj (Option.some.inj decoded)
      rfl
  | succ n ih =>
      obtain ⟨c, between, later, -, rfl, found⟩ := decode_succ_eq_some decoded
      rw [List.length_cons, ih found]

/-- Text that stands for some bytes stands for fewer, too, by induction on their number. -/
theorem decode_isSome_of_le {m n : Nat} (fewer : m ≤ n) {s : List (BitVec 8)}
    (decodes : (decode escape mask n s).isSome)
    : (decode escape mask m s).isSome := by
  induction m generalizing n s with
  | zero => rfl
  | succ m ih =>
      obtain ⟨n, rfl⟩ := Nat.exists_eq_add_one_of_ne_zero (Nat.ne_of_gt (Nat.zero_lt_of_lt fewer))
      obtain ⟨⟨data, rest⟩, decoded⟩ := Option.isSome_iff_exists.mp decodes
      obtain ⟨c, between, later, first, -, found⟩ := decode_succ_eq_some decoded
      rw [decode_succ first, Option.isSome_map]
      exact ih (Nat.le_of_succ_le_succ fewer) (Option.isSome_iff_exists.mpr ⟨_, found⟩)

/-- An encoding is read back as its text, by induction on it. -/
theorem Encodes.decoded {special : BitVec 8 → Prop} {encoding data : List (BitVec 8)}
    (encodes : Encodes escape mask special encoding data) (announces : special escape)
    (more : List (BitVec 8))
    : decode escape mask data.length (encoding ++ more) = some (data, more) := by
  induction encodes with
  | nil => rfl
  | @plain c encoding data ordinary _ ih =>
      have notEscape : c ≠ escape := by
        rintro rfl
        exact ordinary announces
      rw [List.length_cons, List.cons_append, decode_succ (next_plain notEscape _), ih,
        Option.map_some]
  | @escaped c encoding data _ ih =>
      have restored : c ^^^ mask ^^^ mask = c := by
        rw [BitVec.xor_assoc, BitVec.xor_self, BitVec.xor_zero]
      rw [List.length_cons, List.cons_append, List.cons_append, decode_succ (next_escape _ _), ih,
        Option.map_some, restored]

end ByteStuffing
