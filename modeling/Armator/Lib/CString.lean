import Mathlib.Data.List.Lex
import Mathlib.Order.Lattice

/-! Strings of C and their order. -/

/-- What a `char *` points to: the bytes in front of the first NUL. -/
structure CString where
  bytes : List (BitVec 8)
  noNul : ∀ c ∈ bytes, c ≠ 0

namespace CString

/-- `strcmp` on the bytes of two strings, each of which is followed by a NUL. C only fixes the sign
of the result; here it is the difference of the first two bytes that differ.
-/
def compareBytes : List (BitVec 8) → List (BitVec 8) → Int
  | [], [] => 0
  | [], d :: _ => 0 - d.toNat
  | c :: _, [] => c.toNat
  | c :: s, d :: t => if c = d then compareBytes s t else c.toNat - d.toNat

def strcmp (s t : CString) : Int :=
  compareBytes s.bytes t.bytes

/-- The bytes as numbers, which are ordered as in a dictionary. -/
def key (s : CString) : List Nat :=
  s.bytes.map BitVec.toNat

theorem key_injective : Function.Injective key := by
  intro s t same
  have bytes : s.bytes = t.bytes :=
    List.map_injective_iff.mpr (fun c d equal => BitVec.eq_of_toNat_eq equal) same
  cases s
  cases t
  cases bytes
  rfl

instance : LinearOrder CString :=
  LinearOrder.lift' key key_injective

/-- The sign of `strcmp` is the order, by induction on the bytes. -/
theorem compareBytes_neg_iff {s t : List (BitVec 8)} (noNul : ∀ d ∈ t, d ≠ 0)
    : compareBytes s t < 0 ↔ s.map BitVec.toNat < t.map BitVec.toNat := by
  induction s generalizing t with
  | nil =>
      cases t with
      | nil => exact iff_of_false (Int.lt_irrefl 0) (List.not_lt_nil _)
      | cons d t =>
          have notZero : d.toNat ≠ 0 := fun zero =>
            noNul d List.mem_cons_self (BitVec.eq_of_toNat_eq zero)
          rw [compareBytes, List.map_nil, List.map_cons]
          exact iff_of_true (by omega) (List.nil_lt_cons _ _)
  | cons c s ih =>
      cases t with
      | nil =>
          rw [compareBytes]
          exact iff_of_false (by omega) (List.not_lt_nil _)
      | cons d t =>
          rw [compareBytes, List.map_cons, List.map_cons, List.cons_lt_cons_iff]
          by_cases same : c = d
          · rw [if_pos same, ih fun e member => noNul e (List.mem_cons_of_mem d member), same]
            exact ⟨fun less => .inr ⟨rfl, less⟩,
              fun either => either.elim (fun less => absurd less (Nat.lt_irrefl _)) And.right⟩
          · have different : c.toNat ≠ d.toNat := fun equal => same (BitVec.eq_of_toNat_eq equal)
            rw [if_neg same]
            exact ⟨fun less => .inl (by omega),
              fun either => either.elim (fun less => by omega) fun both => absurd both.1 different⟩

/-- Exchanging the strings changes the sign, by induction on the bytes. -/
theorem compareBytes_swap (s t : List (BitVec 8)) : compareBytes t s = -compareBytes s t := by
  induction s generalizing t with
  | nil =>
      cases t with
      | nil => rfl
      | cons d t =>
          rw [compareBytes, compareBytes]
          omega
  | cons c s ih =>
      cases t with
      | nil =>
          rw [compareBytes, compareBytes]
          omega
      | cons d t =>
          rw [compareBytes, compareBytes]
          by_cases same : c = d
          · rw [if_pos same, if_pos same.symm, ih]
          · rw [if_neg same, if_neg (Ne.symm same)]
            omega

theorem strcmp_neg_iff (s t : CString) : strcmp s t < 0 ↔ s < t :=
  compareBytes_neg_iff t.noNul

theorem strcmp_pos_iff (s t : CString) : 0 < strcmp s t ↔ t < s := by
  rw [← strcmp_neg_iff, strcmp, strcmp, compareBytes_swap]
  omega

theorem strcmp_nonpos_iff (s t : CString) : strcmp s t ≤ 0 ↔ s ≤ t := by
  rw [← Int.not_lt, strcmp_pos_iff, not_lt]

theorem strcmp_eq_zero_iff (s t : CString) : strcmp s t = 0 ↔ s = t := by
  rw [Int.le_antisymm_iff, strcmp_nonpos_iff, ← Int.not_lt, strcmp_neg_iff, not_lt,
    le_antisymm_iff]

end CString
