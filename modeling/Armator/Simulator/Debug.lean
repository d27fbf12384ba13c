import Armator.Lib.CString
import Armator.Lib.Traced

/-! `debug.c`: the table of the files whose debug messages are wanted. -/

namespace Armator.Debug

open CString Traced

def MAX_FILES_NUMBER : Nat := 64

/-- The array `debugged_files` with its entry count; what lies behind the entries is never looked
at.
-/
structure FileTable where
  debuggedFiles : Nat → CString
  nbDebuggedFiles : Nat

/-- An access to the array, with its index. -/
inductive FileEvent where
  | read (index : Int)
  | write (index : Int)
deriving DecidableEq

/-- Why a call does not come back: a write misses the array. -/
inductive FileStop where
  | overflow

abbrev FileAct := Traced FileEvent FileStop FileTable

/-- The pointer `debugged_files[index]`. -/
def readFile (index : Int) : FileAct CString := do
  log (.read index)
  let table ← get
  pure (table.debuggedFiles index.toNat)

/-- The assignment `debugged_files[index] = name`. -/
def writeFile (index : Nat) (name : CString) : FileAct Unit := do
  log (.write index)
  if index < MAX_FILES_NUMBER then
    modify fun table =>
      { table with debuggedFiles := fun j => if j = index then name else table.debuggedFiles j }
  else stop .overflow

/-- The first loop of `add_debug_to` from `i` on: `n` is what `i` lacks to `MAX_FILES_NUMBER`. -/
def placeLoop (name : CString) : Nat → Nat → FileAct Nat
  | 0, i => pure i
  | n + 1, i => do
      let table ← get
      if i < table.nbDebuggedFiles then do
        let file ← readFile i
        if strcmp file name < 0 then placeLoop name n (i + 1) else pure i
      else pure i

/-- The second loop of `add_debug_to` for `j` from `i + k` down to `i + 1`. -/
def shiftLoop (i : Nat) : Nat → FileAct Unit
  | 0 => pure ()
  | k + 1 => do
      let file ← readFile (i + k : Nat)
      writeFile (i + k + 1) file
      shiftLoop i k

def addDebugTo (name : CString) : FileAct Unit := do
  let i ← placeLoop name MAX_FILES_NUMBER 0
  if MAX_FILES_NUMBER ≤ i then pure ()
  else do
    let table ← get
    shiftLoop i (table.nbDebuggedFiles - i)
    writeFile i name
    modify fun table => { table with nbDebuggedFiles := table.nbDebuggedFiles + 1 }

/-- The middle of an interval; C rounds towards 0. -/
def middle (start last : Int) : Int :=
  (start + last).tdiv 2

/-- The middle is in the interval, on whichever side of 0 that is. -/
theorem middle_inside {start last : Int} (less : start < last)
    : start ≤ middle start last ∧ middle start last ≤ last := by
  have sign : Int.sign 2 = 1 := rfl
  rw [middle, Int.tdiv_eq_ediv, sign]
  split <;> omega

/-- The loop of `__is_debugged`: its last interval, or nothing if it returns 1. -/
def searchLoop (name : CString) (start last : Int) : FileAct (Option (Int × Int)) :=
  if _less : start < last then do
    let file ← readFile (middle start last)
    let result := strcmp file name
    if result < 0 then searchLoop name (middle start last + 1) last
    else if result > 0 then searchLoop name start (middle start last - 1)
    else pure none
  else pure (some (start, last))
termination_by (last - start).toNat
decreasing_by
  all_goals
    have inside := middle_inside _less
    omega

/-- `__is_debugged`. -/
def isDebugged (name : CString) : FileAct Int := do
  let table ← get
  let found ← searchLoop name 0 (table.nbDebuggedFiles - 1)
  match found with
  | none => pure 1
  | some (start, last) =>
      if start = last then do
        let file ← readFile start
        if strcmp file name = 0 then pure 1 else pure 0
      else pure 0

end Armator.Debug
