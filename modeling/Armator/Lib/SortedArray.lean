import Mathlib.Data.List.Sort

/-! Arrays whose first entries are in order: where a new entry belongs, and what a search by halves
may leave out.
-/

namespace SortedArray

variable {α : Type}

/-- The first `n` entries of an array. -/
def entries (array : Nat → α) (n : Nat) : List α :=
  (List.range n).map array

/-- The array with an entry inserted at `i`, and the later ones moved up. -/
def insertAt (array : Nat → α) (i : Nat) (x : α) : Nat → α :=
  fun j => if j < i then array j else if j = i then x else array (j - 1)

theorem length_entries (array : Nat → α) (n : Nat) : (entries array n).length = n := by
  rw [entries, List.length_map, List.length_range]

theorem getElem_entries (array : Nat → α) {n i : Nat} (inside : i < (entries array n).length)
    : (entries array n)[i] = array i := by
  simp only [entries, List.getElem_map, List.getElem_range]

theorem entries_congr {array other : Nat → α} {n : Nat} (same : ∀ i < n, array i = other i)
    : entries array n = entries other n :=
  List.map_congr_left fun i member => same i (List.mem_range.mp member)

theorem mem_entries {array : Nat → α} {n : Nat} {x : α}
    : x ∈ entries array n ↔ ∃ i < n, array i = x := by
  simp only [entries, List.mem_map, List.mem_range]

/-- Inserting in the array is inserting in the list of entries. -/
theorem entries_insertAt (array : Nat → α) {n i : Nat} (inside : i ≤ n) (x : α)
    : entries (insertAt array i x) (n + 1)
      = (entries array n).take i ++ x :: (entries array n).drop i := by
  have length : ((entries array n).take i).length = i := by
    rw [List.length_take, length_entries, Nat.min_eq_left inside]
  refine List.ext_getElem ?_ fun j below below' => ?_
  · rw [List.length_append, List.length_cons, List.length_drop, length, length_entries,
      length_entries]
    omega
  · rw [length_entries] at below
    rw [getElem_entries, insertAt]
    rcases Nat.lt_trichotomy j i with before | rfl | behind
    · rw [if_pos before, List.getElem_append_left (by omega), List.getElem_take, getElem_entries]
    · rw [if_neg (Nat.lt_irrefl j), if_pos rfl, List.getElem_append_right (by omega)]
      simp only [length, Nat.sub_self, List.getElem_cons_zero]
    · obtain ⟨k, rfl⟩ : ∃ k, j = i + (k + 1) := ⟨j - i - 1, by omega⟩
      rw [if_neg (by omega), if_neg (by omega), List.getElem_append_right (by omega)]
      simp only [length, Nat.add_sub_cancel_left, List.getElem_cons_succ, List.getElem_drop,
        getElem_entries, Nat.add_sub_assoc (Nat.le_add_left 1 k), Nat.add_sub_cancel]

-----------------------------------------------------------------------------------------
-- Intervals
-----------------------------------------------------------------------------------------

/-- Every entry equal to `x` is in the interval, which is inside the entries. -/
structure Encloses (array : Nat → α) (n : Nat) (x : α) (start last : Int) : Prop where
  nonneg : 0 ≤ start
  below : last < n
  holds : ∀ i : Nat, i < n → array i = x → start ≤ i ∧ i ≤ last

theorem Encloses.whole (array : Nat → α) (n : Nat) (x : α) : Encloses array n x 0 (n - 1) :=
  ⟨Int.le_refl 0, by omega, fun i below _ => by omega⟩

/-- An interval of one place decides whether there is an entry. -/
theorem Encloses.mem_iff_of_single {array : Nat → α} {n : Nat} {x : α} {start : Int}
    (encloses : Encloses array n x start start)
    : x ∈ entries array n ↔ array start.toNat = x := by
  have nonneg := encloses.nonneg
  have below := encloses.below
  rw [mem_entries]
  constructor
  · rintro ⟨i, inArray, found⟩
    obtain ⟨lower, upper⟩ := encloses.holds i inArray found
    obtain rfl : i = start.toNat := by omega
    exact found
  · exact fun found => ⟨start.toNat, by omega, found⟩

/-- There is no entry in an empty interval. -/
theorem Encloses.notMem_of_empty {array : Nat → α} {n : Nat} {x : α} {start last : Int}
    (encloses : Encloses array n x start last) (empty : last < start)
    : x ∉ entries array n := by
  rw [mem_entries]
  rintro ⟨i, inArray, found⟩
  have inside := encloses.holds i inArray found
  omega

variable [LinearOrder α]

-----------------------------------------------------------------------------------------
-- Insertion
-----------------------------------------------------------------------------------------

/-- `i` is the first place where an entry is not below `x`, or the end of the entries. -/
structure IsPlace (array : Nat → α) (n : Nat) (x : α) (i : Nat) : Prop where
  inside : i ≤ n
  before : ∀ j < i, array j < x
  notBelow : i < n → x ≤ array i

/-- An entry goes between those below it and the others, by induction on the ones below. -/
theorem orderedInsert_append {x : α} {before behind : List α} (below : ∀ y ∈ before, y < x)
    (notBelow : ∀ y, behind.head? = some y → x ≤ y)
    : (before ++ behind).orderedInsert (· ≤ ·) x = before ++ x :: behind := by
  induction before with
  | nil =>
      cases behind with
      | nil => rfl
      | cons y rest => exact List.orderedInsert_cons_of_le _ rest (notBelow y rfl)
  | cons y rest ih =>
      have notLe : ¬ x ≤ y := not_le.mpr (below y List.mem_cons_self)
      rw [List.cons_append, List.orderedInsert_of_not_le _ _ notLe, List.cons_append,
        ih fun z member => below z (List.mem_cons_of_mem y member)]

/-- Every entry has a place, by induction on the number of entries. -/
theorem exists_isPlace (array : Nat → α) (n : Nat) (x : α) : ∃ i, IsPlace array n x i := by
  induction n with
  | zero => exact ⟨0, Nat.le_refl 0, fun j below => absurd below (Nat.not_lt_zero j),
      fun inside => absurd inside (Nat.lt_irrefl 0)⟩
  | succ n ih =>
      obtain ⟨i, inside, before, notBelow⟩ := ih
      rcases Nat.lt_or_eq_of_le inside with less | rfl
      · exact ⟨i, Nat.le_succ_of_le inside, before, fun _ => notBelow less⟩
      · rcases le_or_gt x (array i) with le | less
        · exact ⟨i, Nat.le_succ i, before, fun _ => le⟩
        · refine ⟨i + 1, Nat.le_refl _, fun j below => ?_,
            fun more => absurd more (Nat.lt_irrefl _)⟩
          rcases Nat.lt_succ_iff_lt_or_eq.mp below with earlier | rfl
          · exact before j earlier
          · exact less

/-- Inserting at the place of an entry is inserting in order. -/
theorem IsPlace.orderedInsert {array : Nat → α} {n i : Nat} {x : α} (place : IsPlace array n x i)
    : entries (insertAt array i x) (n + 1) = (entries array n).orderedInsert (· ≤ ·) x := by
  have split := List.take_append_drop i (entries array n)
  rw [entries_insertAt array place.inside, ← orderedInsert_append, split]
  · intro y member
    obtain ⟨j, below, rfl⟩ := List.mem_take_iff_getElem.mp member
    rw [getElem_entries]
    exact place.before j (Nat.lt_of_lt_of_le below (Nat.min_le_left _ _))
  · intro y head
    rw [List.head?_drop] at head
    obtain ⟨below, rfl⟩ := List.getElem?_eq_some_iff.mp head
    rw [getElem_entries]
    rw [length_entries] at below
    exact place.notBelow below

-----------------------------------------------------------------------------------------
-- Search
-----------------------------------------------------------------------------------------

/-- The first `n` entries are in order. -/
def Ascending (array : Nat → α) (n : Nat) : Prop :=
  ∀ i j, i ≤ j → j < n → array i ≤ array j

theorem ascending_iff (array : Nat → α) (n : Nat)
    : Ascending array n ↔ (entries array n).Pairwise (· ≤ ·) := by
  rw [List.pairwise_iff_getElem]
  constructor
  · intro ascending i j below below' less
    rw [getElem_entries, getElem_entries]
    rw [length_entries] at below'
    exact ascending i j (Nat.le_of_lt less) below'
  · intro pairwise i j le below
    rcases Nat.lt_or_eq_of_le le with less | rfl
    · have ordered := pairwise i j (by rw [length_entries]; omega) (by rwa [length_entries]) less
      rwa [getElem_entries, getElem_entries] at ordered
    · exact le_refl _

variable {array : Nat → α} {n : Nat} {x : α} {start last middle : Int}

/-- Behind an entry below `x`. -/
theorem Encloses.behind (encloses : Encloses array n x start last) (ascending : Ascending array n)
    (inside : start ≤ middle ∧ middle ≤ last) (less : array middle.toNat < x)
    : Encloses array n x (middle + 1) last := by
  have nonneg := encloses.nonneg
  have below := encloses.below
  refine ⟨by omega, below, fun i inArray found => ⟨?_, (encloses.holds i inArray found).2⟩⟩
  by_contra before
  have ordered := ascending i middle.toNat (by omega) (by omega)
  rw [found] at ordered
  exact absurd less (not_lt.mpr ordered)

/-- In front of an entry above `x`. -/
theorem Encloses.before (encloses : Encloses array n x start last) (ascending : Ascending array n)
    (inside : start ≤ middle ∧ middle ≤ last) (greater : x < array middle.toNat)
    : Encloses array n x start (middle - 1) := by
  have nonneg := encloses.nonneg
  have below := encloses.below
  refine ⟨nonneg, by omega, fun i inArray found => ⟨(encloses.holds i inArray found).1, ?_⟩⟩
  by_contra after
  have ordered := ascending middle.toNat i (by omega) inArray
  rw [found] at ordered
  exact absurd greater (not_lt.mpr ordered)

end SortedArray
