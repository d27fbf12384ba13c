import Armator.Lib.SortedArray
import Armator.Simulator.Debug

/-! The table of files is kept in order, as long as it is not overrun, and is searched by halves. -/

namespace Armator.Debug

open CString Traced SortedArray

/-- The names in the table, in the order of the array. -/
def FileTable.names (table : FileTable) : List CString :=
  entries table.debuggedFiles table.nbDebuggedFiles

/-- The table with a name put at place `i`. -/
def FileTable.inserted (table : FileTable) (i : Nat) (name : CString) : FileTable where
  debuggedFiles j :=
    if j ≤ table.nbDebuggedFiles then insertAt table.debuggedFiles i name j
    else table.debuggedFiles j
  nbDebuggedFiles := table.nbDebuggedFiles + 1

/-- The array while the entries from `i + k` on have been moved up, where `n` of them follow `i`. -/
def FileTable.shifted (table : FileTable) (i k n : Nat) : FileTable :=
  { table with
    debuggedFiles := fun j =>
      if i + k < j ∧ j ≤ i + n then table.debuggedFiles (j - 1) else table.debuggedFiles j }

/-- Writes stay inside the array. -/
def InArray : FileEvent → Prop
  | .read _ => True
  | .write index => index < MAX_FILES_NUMBER

/-- Only entries of the table are read. -/
def ReadsEntries (table : FileTable) : FileEvent → Prop
  | .read index => 0 ≤ index ∧ index < table.nbDebuggedFiles
  | .write _ => False

/-- The table before the first option. -/
def FileTable.empty (debuggedFiles : Nat → CString) : FileTable :=
  { debuggedFiles, nbDebuggedFiles := 0 }

theorem names_inserted {table : FileTable} {i : Nat} {name : CString}
    (place : IsPlace table.debuggedFiles table.nbDebuggedFiles name i)
    : (table.inserted i name).names = table.names.orderedInsert (· ≤ ·) name := by
  rw [FileTable.names, FileTable.names, ← place.orderedInsert]
  exact entries_congr fun j below => if_pos (Nat.le_of_lt_succ below)

theorem sorted_inserted {table : FileTable} {i : Nat} {name : CString}
    (place : IsPlace table.debuggedFiles table.nbDebuggedFiles name i)
    (sorted : table.names.Pairwise (· ≤ ·))
    : (table.inserted i name).names.Pairwise (· ≤ ·) := by
  rw [names_inserted place]
  exact sorted.orderedInsert name table.names

theorem perm_inserted {table : FileTable} {i : Nat} {name : CString}
    (place : IsPlace table.debuggedFiles table.nbDebuggedFiles name i)
    : (table.inserted i name).names.Perm (name :: table.names) := by
  rw [names_inserted place]
  exact List.perm_orderedInsert _ name table.names

-----------------------------------------------------------------------------------------
-- Adding a name
-----------------------------------------------------------------------------------------

section Adding

variable {post : Unit → FileTable → Prop} {table : FileTable}

/-- The first loop finds the place of the name, by induction on what is left of the array. -/
theorem meets_placeLoop {post : Nat → FileTable → Prop} {name : CString} {i : Nat}
    (place : IsPlace table.debuggedFiles (min table.nbDebuggedFiles MAX_FILES_NUMBER) name i)
    {n k : Nat} (whole : k + n = MAX_FILES_NUMBER) (reached : k ≤ i)
    : Meets InArray (fun _ => False) post (placeLoop name n k) table ↔ post i table := by
  have inside := place.inside
  induction n generalizing k with
  | zero =>
      obtain rfl : k = i := by omega
      exact meets_pure k
  | succ n ih =>
      simp only [placeLoop, meets_bind, meets_get]
      by_cases more : k < table.nbDebuggedFiles
      · simp only [more, if_true, readFile, meets_bind, meets_log, meets_get, meets_pure,
          Int.toNat_natCast, strcmp_neg_iff]
        refine (and_iff_right trivial).trans ?_
        rcases Nat.lt_or_eq_of_le reached with less | rfl
        · rw [if_pos (place.before k less)]
          exact ih (by omega) less
        · rw [if_neg (not_lt.mpr (place.notBelow (by omega))), meets_pure]
      · obtain rfl : k = i := by omega
        rw [if_neg more, meets_pure]

theorem meets_writeFile (index : Nat) (name : CString)
    : Meets InArray (fun _ => False) post (writeFile index name) table
      ↔ index < MAX_FILES_NUMBER
        ∧ post ()
            { table with
              debuggedFiles := fun j => if j = index then name else table.debuggedFiles j } := by
  have inArray : InArray (.write index) ↔ index < MAX_FILES_NUMBER := Int.ofNat_lt
  rw [writeFile, meets_bind, meets_log, inArray]
  refine and_congr_right fun below => ?_
  rw [if_pos below, meets_modify]

/-- The second loop moves the entries behind the place up, by induction on those left to move. -/
theorem meets_shiftLoop (i k n : Nat) (left : k ≤ n)
    (room : i + n < MAX_FILES_NUMBER)
    : Meets InArray (fun _ => False) post (shiftLoop i k) (table.shifted i k n)
      ↔ post () (table.shifted i 0 n) := by
  induction k with
  | zero => exact meets_pure ()
  | succ k ih =>
      have next : { table.shifted i (k + 1) n with
            debuggedFiles := fun j =>
              if j = i + k + 1 then (table.shifted i (k + 1) n).debuggedFiles (i + k)
              else (table.shifted i (k + 1) n).debuggedFiles j }
          = table.shifted i k n := by
        simp only [FileTable.shifted, FileTable.mk.injEq, and_true]
        funext j
        rcases Nat.lt_trichotomy j (i + k + 1) with below | rfl | above
        · rw [if_neg (by omega), if_neg (by omega), if_neg (by omega)]
        · rw [if_pos rfl, if_neg (by omega), if_pos (by omega), Nat.add_sub_cancel]
        · rw [if_neg (by omega)]
          exact if_congr (by omega) rfl rfl
      simp only [shiftLoop, readFile, meets_bind, meets_log, meets_get, meets_pure,
        Int.toNat_natCast, meets_writeFile, next]
      rw [ih (Nat.le_of_succ_le left)]
      exact (and_iff_right trivial).trans (and_iff_right (by omega))

/-- A name behind 64 others is dropped, and any other one needs room for one more. -/
theorem meets_addDebugTo {name : CString} {i : Nat}
    (place : IsPlace table.debuggedFiles (min table.nbDebuggedFiles MAX_FILES_NUMBER) name i)
    : Meets InArray (fun _ => False) post (addDebugTo name) table
      ↔ if MAX_FILES_NUMBER ≤ i then post () table
        else table.nbDebuggedFiles < MAX_FILES_NUMBER ∧ post () (table.inserted i name) := by
  have inside := place.inside
  rw [addDebugTo, meets_bind, meets_placeLoop place (Nat.zero_add _) (Nat.zero_le i)]
  split
  · exact meets_pure ()
  · simp only [meets_bind, meets_get]
    obtain ⟨n, count⟩ : ∃ n, table.nbDebuggedFiles = i + n := ⟨table.nbDebuggedFiles - i, by omega⟩
    have start : table.shifted i n n = table := by
      have unchanged (j : Nat)
          : (if i + n < j ∧ j ≤ i + n then table.debuggedFiles (j - 1) else table.debuggedFiles j)
            = table.debuggedFiles j :=
        if_neg (by omega)
      simp only [FileTable.shifted, unchanged]
    have after
        : { table.shifted i 0 n with
            debuggedFiles := fun j => if j = i then name else (table.shifted i 0 n).debuggedFiles j
            nbDebuggedFiles := (table.shifted i 0 n).nbDebuggedFiles + 1 }
          = table.inserted i name := by
      simp only [FileTable.shifted, FileTable.inserted, FileTable.mk.injEq, and_true, insertAt,
        count]
      funext j
      rcases Nat.lt_trichotomy j i with below | rfl | above
      · rw [if_neg (by omega), if_neg (by omega), if_pos (by omega), if_pos below]
      · rw [if_pos rfl, if_pos (by omega), if_neg (Nat.lt_irrefl j), if_pos rfl]
      · have notBelow : ¬ j < i := by omega
        have notPlace : ¬ j = i := by omega
        simp only [notBelow, notPlace, if_false]
        exact if_congr (by omega) rfl rfl
    rw [count, Nat.add_sub_cancel_left]
    by_cases room : i + n < MAX_FILES_NUMBER
    · have moved {next : Unit → FileTable → Prop}
          : Meets InArray (fun _ => False) next (shiftLoop i n) table
            ↔ next () (table.shifted i 0 n) := by
        have whole : Meets InArray (fun _ => False) next (shiftLoop i n) (table.shifted i n n)
            ↔ next () (table.shifted i 0 n) :=
          meets_shiftLoop i n n (Nat.le_refl n) room
        rwa [start] at whole
      rw [moved, meets_writeFile, meets_modify, after]
      exact and_congr_left fun _ => by omega
    · refine iff_of_false (fun met => ?_) fun both => room both.1
      obtain ⟨k, rfl⟩ : ∃ k, n = k + 1 := ⟨n - 1, by omega⟩
      rw [shiftLoop] at met
      simp only [meets_bind, meets_writeFile, readFile, meets_log, meets_get, meets_pure] at met
      omega

/-- The place among all the entries, for a table that is not overrun. -/
theorem exists_place (name : CString) (fits : table.nbDebuggedFiles ≤ MAX_FILES_NUMBER)
    : ∃ i,
        IsPlace table.debuggedFiles (min table.nbDebuggedFiles MAX_FILES_NUMBER) name i
        ∧ IsPlace table.debuggedFiles table.nbDebuggedFiles name i := by
  obtain ⟨i, place⟩ := exists_isPlace table.debuggedFiles table.nbDebuggedFiles name
  rw [Nat.min_eq_left fits]
  exact ⟨i, place, place⟩

/-- The names that a table has no room for sort behind those it has room for. -/
def SortBehind (table : FileTable) (names : List CString) : Prop :=
  let room := MAX_FILES_NUMBER - table.nbDebuggedFiles
  ∀ later ∈ names.drop room, ∀ first ∈ table.names ++ names.take room, first < later

/-- A table that is not full takes the next name. -/
theorem sortBehind_cons_iff {name : CString} {i : Nat}
    (place : IsPlace table.debuggedFiles table.nbDebuggedFiles name i)
    (room : table.nbDebuggedFiles < MAX_FILES_NUMBER) (rest : List CString)
    : SortBehind table (name :: rest) ↔ SortBehind (table.inserted i name) rest := by
  obtain ⟨m, count⟩ : ∃ m, MAX_FILES_NUMBER = table.nbDebuggedFiles + (m + 1) :=
    ⟨MAX_FILES_NUMBER - table.nbDebuggedFiles - 1, by omega⟩
  have after : (table.inserted i name).nbDebuggedFiles = table.nbDebuggedFiles + 1 := rfl
  have one : table.nbDebuggedFiles + (m + 1) - (table.nbDebuggedFiles + 1) = m := by omega
  have members (first : CString)
      : first ∈ table.names ++ name :: rest.take m
        ↔ first ∈ (table.inserted i name).names ++ rest.take m := by
    rw [List.mem_append, List.mem_append, (perm_inserted place).mem_iff, List.mem_cons,
      List.mem_cons]
    tauto
  simp only [SortBehind, count, after, Nat.add_sub_cancel_left, one, List.drop_succ_cons,
    List.take_succ_cons, members]

/-- A sequence of calls stays inside the array iff the names it has no room for sort behind the
others, by induction on the names.
-/
theorem meets_addAll_iff (names : List CString) (fits : table.nbDebuggedFiles ≤ MAX_FILES_NUMBER)
    : Meets InArray (fun _ => False) (fun _ t => t.nbDebuggedFiles ≤ MAX_FILES_NUMBER)
        (each names addDebugTo) table
      ↔ SortBehind table names := by
  induction names generalizing table with
  | nil =>
      rw [meets_each_nil]
      exact iff_of_true fits fun later member => absurd member (by simp)
  | cons name rest ih =>
      obtain ⟨i, capped, place⟩ := exists_place name fits
      rw [meets_each_cons, meets_addDebugTo capped]
      rcases Nat.lt_or_eq_of_le fits with room | full
      · have inside := place.inside
        have notEnd : ¬ MAX_FILES_NUMBER ≤ i := by omega
        have one : (table.inserted i name).nbDebuggedFiles ≤ MAX_FILES_NUMBER := room
        rw [if_neg notEnd, ih one, sortBehind_cons_iff place room]
        exact and_iff_right room
      · have noRoom : ¬ table.nbDebuggedFiles < MAX_FILES_NUMBER := by omega
        have none : MAX_FILES_NUMBER - table.nbDebuggedFiles = 0 := by omega
        have goesOn := ih fits
        simp only [SortBehind, none, List.drop_zero, List.take_zero, List.append_nil,
          List.forall_mem_cons] at goesOn ⊢
        rw [goesOn]
        by_cases behind : MAX_FILES_NUMBER ≤ i
        · refine (iff_of_eq (if_pos behind)).trans (and_iff_right fun first member => ?_).symm
          obtain ⟨j, below, rfl⟩ := mem_entries.mp member
          exact place.before j (by omega)
        · rw [if_neg behind]
          refine iff_of_false (fun both => noRoom both.1) fun both => ?_
          have entry : table.debuggedFiles i ∈ table.names := mem_entries.mpr ⟨i, by omega, rfl⟩
          exact absurd (both.1 _ entry) (not_lt.mpr (place.notBelow (by omega)))

/-- Names that fit are all kept, in order, by induction on them. -/
theorem meets_addAll (names : List CString)
    (fits : table.nbDebuggedFiles + names.length ≤ MAX_FILES_NUMBER)
    (sorted : table.names.Pairwise (· ≤ ·))
    : Meets InArray (fun _ => False)
        (fun _ t => t.names.Pairwise (· ≤ ·) ∧ t.names.Perm (names ++ table.names))
        (each names addDebugTo) table := by
  induction names generalizing table with
  | nil =>
      rw [meets_each_nil]
      exact ⟨sorted, List.Perm.refl _⟩
  | cons name rest ih =>
      rw [List.length_cons] at fits
      have low : table.nbDebuggedFiles ≤ MAX_FILES_NUMBER := by omega
      obtain ⟨i, capped, place⟩ := exists_place name low
      have inside := place.inside
      have notEnd : ¬ MAX_FILES_NUMBER ≤ i := by omega
      have room : (table.inserted i name).nbDebuggedFiles + rest.length ≤ MAX_FILES_NUMBER := by
        change table.nbDebuggedFiles + 1 + rest.length ≤ MAX_FILES_NUMBER
        omega
      rw [meets_each_cons, meets_addDebugTo capped, if_neg notEnd]
      refine ⟨by omega, (ih room (sorted_inserted place sorted)).mono ?_⟩
      rintro ⟨⟩ t ⟨ordered, perm⟩
      exact ⟨ordered, perm.trans
        (((perm_inserted place).append_left rest).trans List.perm_middle)⟩

end Adding

-----------------------------------------------------------------------------------------
-- Looking a name up
-----------------------------------------------------------------------------------------

/-- The loop of `__is_debugged` returns if it meets the name; otherwise it leaves at most one place
for it. By induction on the width of the interval.
-/
theorem meets_searchLoop {table : FileTable} {name : CString} {start last : Int}
    (sorted : Ascending table.debuggedFiles table.nbDebuggedFiles)
    (encloses : Encloses table.debuggedFiles table.nbDebuggedFiles name start last)
    : Meets (ReadsEntries table) (fun _ => False)
        (fun found t =>
          t = table
          ∧ match found with
            | none => name ∈ table.names
            | some (first, final) =>
                final ≤ first
                ∧ Encloses table.debuggedFiles table.nbDebuggedFiles name first final)
        (searchLoop name start last) table := by
  induction width : (last - start).toNat using Nat.strong_induction_on generalizing start last with
  | h width ih =>
      rw [searchLoop]
      split
      · next less =>
          have inside := middle_inside less
          have nonneg := encloses.nonneg
          have below := encloses.below
          simp only [readFile, meets_bind, meets_log, meets_get, meets_pure, strcmp_neg_iff, gt_iff_lt,
            strcmp_pos_iff]
          refine ⟨⟨by omega, by omega⟩, ?_⟩
          rcases lt_trichotomy (table.debuggedFiles (middle start last).toNat) name
            with before | same | behind
          · rw [if_pos before]
            exact ih _ (by omega) (encloses.behind sorted inside before) rfl
          · rw [if_neg same.not_lt, if_neg same.not_gt, meets_pure]
            exact ⟨rfl, mem_entries.mpr ⟨_, by omega, same⟩⟩
          · rw [if_neg behind.not_gt, if_pos behind]
            exact ih _ (by omega) (encloses.before sorted inside behind) rfl
      · next empty => exact (meets_pure _).mpr ⟨rfl, Int.not_lt.mp empty, encloses⟩

/-- A sorted table is searched without a read outside its entries, and 1 is returned for its names
only.
-/
theorem meets_isDebugged {table : FileTable} (sorted : table.names.Pairwise (· ≤ ·))
    (name : CString)
    : Meets (ReadsEntries table) (fun _ => False)
        (fun result t => t = table ∧ (result = 1 ↔ name ∈ table.names)) (isDebugged name) table := by
  have ascending := (ascending_iff _ _).mpr sorted
  rw [isDebugged, meets_bind, meets_get, meets_bind]
  refine (meets_searchLoop ascending (Encloses.whole _ _ name)).mono ?_
  rintro (_ | ⟨start, last⟩) t ⟨rfl, found⟩
  · exact (meets_pure _).mpr ⟨rfl, iff_of_true rfl found⟩
  · obtain ⟨closed, encloses⟩ := found
    dsimp only
    split
    · next single =>
        subst single
        have nonneg := encloses.nonneg
        have below := encloses.below
        simp only [readFile, meets_bind, meets_log, meets_get, meets_pure, strcmp_eq_zero_iff]
        refine ⟨⟨nonneg, below⟩, ?_⟩
        rw [FileTable.names, encloses.mem_iff_of_single]
        split
        · next same => exact (meets_pure _).mpr ⟨rfl, iff_of_true rfl same⟩
        · next other => exact (meets_pure _).mpr ⟨rfl, iff_of_false (by decide) other⟩
    · next different =>
        have absent : name ∉ t.names := encloses.notMem_of_empty (by omega)
        exact (meets_pure _).mpr ⟨rfl, iff_of_false (by decide) absent⟩

/-- After at most 64 calls of `add_debug_to` the table has the names that were added, in order, and
`__is_debugged` finds exactly these.
-/
theorem debuggedFiles_found (debuggedFiles : Nat → CString) (names : List CString)
    (few : names.length ≤ MAX_FILES_NUMBER)
    : Meets InArray (fun _ => False)
        (fun _ table =>
          (table.names.Pairwise fun s t => strcmp s t ≤ 0)
          ∧ table.names.Perm names
          ∧ ∀ name,
              Meets (ReadsEntries table) (fun _ => False)
                (fun result t => t = table ∧ (result = 1 ↔ name ∈ names)) (isDebugged name) table)
        (each names addDebugTo) (.empty debuggedFiles) := by
  have fits
      : (FileTable.empty debuggedFiles).nbDebuggedFiles + names.length ≤ MAX_FILES_NUMBER := by
    rwa [FileTable.empty, Nat.zero_add]
  refine (meets_addAll names fits .nil).mono ?_
  rintro ⟨⟩ table ⟨sorted, perm⟩
  have added : table.names.Perm names := by
    rwa [show (FileTable.empty debuggedFiles).names = [] from rfl, List.append_nil] at perm
  refine ⟨sorted.imp fun le => (strcmp_nonpos_iff _ _).mpr le, added, fun name => ?_⟩
  refine (meets_isDebugged sorted name).mono ?_
  rintro result t ⟨same, found⟩
  exact ⟨same, found.trans added.mem_iff⟩

/-- Two names, of which the second one sorts first. -/
theorem twoFiles_found
    : let later : CString := ⟨[0x62, 0x2e, 0x63], by decide⟩
      let first : CString := ⟨[0x61, 0x2e, 0x63], by decide⟩
      Meets InArray (fun _ => False)
        (fun _ table =>
          (table.names.Pairwise fun s t => strcmp s t ≤ 0)
          ∧ table.names.Perm [later, first]
          ∧ ∀ name,
              Meets (ReadsEntries table) (fun _ => False)
                (fun result t => t = table ∧ (result = 1 ↔ name ∈ [later, first])) (isDebugged name)
                table)
        (each [later, first] addDebugTo) (.empty fun _ => later) :=
  debuggedFiles_found _ _ (by decide)

/-- Calls of `add_debug_to` write inside the array, and count at most 64 names, iff the names behind
the first 64 sort behind all of these.
-/
theorem addDebugTo_inArray_iff (debuggedFiles : Nat → CString) (names : List CString)
    : (∀ n,
        Meets InArray (fun _ => False) (fun _ table => table.nbDebuggedFiles ≤ MAX_FILES_NUMBER)
          (each (names.take n) addDebugTo) (.empty debuggedFiles))
      ↔ ∀ later ∈ names.drop MAX_FILES_NUMBER, ∀ first ∈ names.take MAX_FILES_NUMBER,
          strcmp first later < 0 := by
  have behind (names : List CString)
      : SortBehind (.empty debuggedFiles) names
        ↔ ∀ later ∈ names.drop MAX_FILES_NUMBER, ∀ first ∈ names.take MAX_FILES_NUMBER,
            strcmp first later < 0 := by
    simp only [strcmp_neg_iff]
    exact Iff.rfl
  have room : (FileTable.empty debuggedFiles).nbDebuggedFiles ≤ MAX_FILES_NUMBER := Nat.zero_le _
  simp only [meets_addAll_iff _ room, behind]
  constructor
  · intro all
    have whole := all names.length
    rwa [List.take_length] at whole
  · intro sorts n later inLater first inFirst
    refine sorts later ?_ first ?_
    · rw [List.drop_take] at inLater
      exact List.mem_of_mem_take inLater
    · rw [List.take_take, Nat.min_comm, ← List.take_take] at inFirst
      exact List.mem_of_mem_take inFirst

/-- 64 times `b.c` and then `a.c`: the last name goes to the front of a full table. -/
theorem sixtyFifthName_overruns
    : let first : CString := ⟨[0x62, 0x2e, 0x63], by decide⟩
      let later : CString := ⟨[0x61, 0x2e, 0x63], by decide⟩
      ¬ Meets InArray (fun _ => False) (fun _ table => table.nbDebuggedFiles ≤ MAX_FILES_NUMBER)
          (each (List.replicate 64 first ++ [later]) addDebugTo) (.empty fun _ => first) := by
  intro first later
  have room : (FileTable.empty fun _ => first).nbDebuggedFiles ≤ MAX_FILES_NUMBER := Nat.zero_le _
  rw [meets_addAll_iff _ room]
  intro sorts
  have less := sorts later (by decide) first (by decide)
  exact absurd ((strcmp_neg_iff first later).mpr less) (by decide)

end Armator.Debug
