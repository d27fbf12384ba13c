import Mathlib.Logic.Function.Basic
import Mathlib.Logic.Relation

/-! Threads that share data under one lock. A run in which their steps interleave in any order ends
where a run of whole critical sections, one after the other, ends as well.
-/

universe u v

namespace CriticalSection

open Relation

/-- What a thread does next. Only `access` touches the shared data. -/
inductive Instruction (Shared : Type u) (Local : Type v) where
  | lock (next : Local)
  | unlock (next : Local)
  | access (act : Shared → Shared × Local)
  | internal (next : Local)
  | halt

variable {Thread : Type} {Shared : Type u} {Local : Thread → Type v}

/-- The next instruction of each thread, from its local state. -/
abbrev Code (Shared : Type u) (Local : Thread → Type v) :=
  ∀ thread, Local thread → Instruction Shared (Local thread)

/-- The shared data, the thread that holds the lock, and where each thread is. -/
structure Config (Shared : Type u) (Local : Thread → Type v) where
  shared : Shared
  holder : Option Thread
  locals : ∀ thread, Local thread

-----------------------------------------------------------------------------------------
-- Discipline
-----------------------------------------------------------------------------------------

/-- An instruction that locks on the way in and unlocks on the way out, and accesses the shared data
inside only.
-/
def Instruction.Respects {Place : Type v} (inside : Place → Prop) (here : Place)
    : Instruction Shared Place → Prop
  | .lock next => ¬ inside here ∧ inside next
  | .unlock next => inside here ∧ ¬ inside next
  | .access act => inside here ∧ ∀ s, inside (act s).2
  | .internal next => inside next ↔ inside here
  | .halt => True

/-- All instructions of the code do. -/
def Guarded (code : Code Shared Local) (inside : ∀ thread, Local thread → Prop) : Prop :=
  ∀ thread here, (code thread here).Respects (inside thread) here

theorem Guarded.respects {code : Code Shared Local} {inside : ∀ thread, Local thread → Prop}
    (guarded : Guarded code inside) {thread : Thread} {here : Local thread}
    {instruction : Instruction Shared (Local thread)} (does : code thread here = instruction)
    : instruction.Respects (inside thread) here :=
  does ▸ guarded thread here

/-- The thread that holds the lock is the one inside. -/
def HolderInside (inside : ∀ thread, Local thread → Prop) (c : Config Shared Local) : Prop :=
  ∀ thread, inside thread (c.locals thread) ↔ c.holder = some thread

-----------------------------------------------------------------------------------------
-- Steps
-----------------------------------------------------------------------------------------

section Runs

variable [DecidableEq Thread]

/-- One step of any thread. Nothing keeps a thread from an access or from unlocking. -/
inductive AnyStep (code : Code Shared Local) : Config Shared Local → Config Shared Local → Prop
  | lock {c : Config Shared Local} {thread : Thread} {next : Local thread}
      (does : code thread (c.locals thread) = .lock next) (free : c.holder = none)
      : AnyStep code c
          { c with holder := some thread, locals := Function.update c.locals thread next }
  | unlock {c : Config Shared Local} {thread : Thread} {next : Local thread}
      (does : code thread (c.locals thread) = .unlock next)
      : AnyStep code c { c with holder := none, locals := Function.update c.locals thread next }
  | access {c : Config Shared Local} {thread : Thread} {act : Shared → Shared × Local thread}
      (does : code thread (c.locals thread) = .access act)
      : AnyStep code c
          { c with
            shared := (act c.shared).1
            locals := Function.update c.locals thread (act c.shared).2 }
  | internal {c : Config Shared Local} {thread : Thread} {next : Local thread}
      (does : code thread (c.locals thread) = .internal next)
      : AnyStep code c { c with locals := Function.update c.locals thread next }

/-- A step inside a critical section, of a thread that is alone with the shared data. -/
inductive Solo (code : Code Shared Local) (thread : Thread)
    : Shared × Local thread → Shared × Local thread → Prop
  | access {s : Shared} {here : Local thread} {act : Shared → Shared × Local thread}
      (does : code thread here = .access act)
      : Solo code thread (s, here) (act s)
  | internal {s : Shared} {here next : Local thread} (does : code thread here = .internal next)
      : Solo code thread (s, here) (s, next)

/-- A step of the machine on which critical sections do not overlap: each one is a single step. -/
inductive Serial (code : Code Shared Local)
    : Shared × (∀ thread, Local thread) → Shared × (∀ thread, Local thread) → Prop
  | internal {s : Shared} {locals : ∀ thread, Local thread} {thread : Thread}
      {next : Local thread} (does : code thread (locals thread) = .internal next)
      : Serial code (s, locals) (s, Function.update locals thread next)
  | whole {s t : Shared} {locals : ∀ thread, Local thread} {thread : Thread}
      {first last next : Local thread} (enters : code thread (locals thread) = .lock first)
      (runs : ReflTransGen (Solo code thread) (s, first) (t, last))
      (leaves : code thread last = .unlock next)
      : Serial code (s, locals) (t, Function.update locals thread next)

variable {code : Code Shared Local} {inside : ∀ thread, Local thread → Prop}

theorem AnyStep.of_access {c : Config Shared Local} {thread : Thread} {t : Shared}
    {act : Shared → Shared × Local thread} {next : Local thread}
    (does : code thread (c.locals thread) = .access act) (ends : act c.shared = (t, next))
    : AnyStep code c { c with shared := t, locals := Function.update c.locals thread next } := by
  have step := AnyStep.access does
  rwa [ends] at step

/-- Moving one thread keeps it, if the new holder is as the place it moves to says. -/
theorem HolderInside.update {c : Config Shared Local} (held : HolderInside inside c)
    {thread : Thread} {next : Local thread} {shared : Shared} {holder : Option Thread}
    (self : inside thread next ↔ holder = some thread)
    (others : ∀ other, other ≠ thread → (c.holder = some other ↔ holder = some other))
    : HolderInside inside ⟨shared, holder, Function.update c.locals thread next⟩ := by
  intro other
  by_cases same : other = thread
  · subst same
    simpa only [Function.update_self] using self
  · simpa only [Function.update_of_ne same] using (held other).trans (others other same)

theorem Guarded.holderInside_step (guarded : Guarded code inside) {c d : Config Shared Local}
    (held : HolderInside inside c) (step : AnyStep code c d)
    : HolderInside inside d := by
  cases step with
  | @lock thread next does free =>
      refine held.update ⟨fun _ => rfl, fun _ => (guarded.respects does).2⟩ fun other differs => ?_
      rw [free]
      exact ⟨nofun, fun same => absurd (Option.some.inj same).symm differs⟩
  | @unlock thread next does =>
      have holds := (held thread).mp (guarded.respects does).1
      refine held.update ⟨fun entered => absurd entered (guarded.respects does).2, nofun⟩
        fun other differs => ?_
      rw [holds]
      exact ⟨fun same => absurd (Option.some.inj same).symm differs, nofun⟩
  | @access thread act does =>
      have holds := (held thread).mp (guarded.respects does).1
      exact held.update ⟨fun _ => holds, fun _ => (guarded.respects does).2 c.shared⟩
        fun _ _ => .rfl
  | @internal thread next does =>
      exact held.update ((guarded.respects does).trans (held thread)) fun _ _ => .rfl

-----------------------------------------------------------------------------------------
-- Serializing
-----------------------------------------------------------------------------------------

/-- How a run of whole sections explains a configuration: it ends there, or it ends where the thread
that holds the lock entered, and this thread alone has come from there.
-/
def Explained (code : Code Shared Local) (start c : Config Shared Local) : Prop :=
  match c.holder with
  | none => ReflTransGen (Serial code) (start.shared, start.locals) (c.shared, c.locals)
  | some thread =>
      ∃ s before first,
        ReflTransGen (Serial code) (start.shared, start.locals)
          (s, Function.update c.locals thread before)
        ∧ code thread before = .lock first
        ∧ ReflTransGen (Solo code thread) (s, first) (c.shared, c.locals thread)

/-- One step of any thread, whose internal steps commute with a section of another one. -/
theorem Guarded.explained_step (guarded : Guarded code inside) {start c d : Config Shared Local}
    (held : HolderInside inside c) (explained : Explained code start c) (step : AnyStep code c d)
    : Explained code start d := by
  cases step with
  | @lock thread next does free =>
      rw [Explained, free] at explained
      refine ⟨c.shared, c.locals thread, next, ?_, does, ?_⟩
      · simpa only [Function.update_idem, Function.update_eq_self] using explained
      · simp only [Function.update_self, ReflTransGen.refl]
  | @unlock thread next does =>
      have holds := (held thread).mp (guarded.respects does).1
      rw [Explained, holds] at explained
      obtain ⟨s, before, first, serial, enters, alone⟩ := explained
      have enters' : code thread (Function.update c.locals thread before thread) = .lock first := by
        rwa [Function.update_self]
      have whole := Serial.whole enters' alone does
      rw [Function.update_idem] at whole
      exact serial.tail whole
  | @access thread act does =>
      have holds := (held thread).mp (guarded.respects does).1
      rw [Explained, holds] at explained ⊢
      obtain ⟨s, before, first, serial, enters, alone⟩ := explained
      refine ⟨s, before, first, ?_, enters, ?_⟩
      · simpa only [Function.update_idem] using serial
      · simpa only [Function.update_self] using alone.tail (.access does)
  | @internal thread next does =>
      cases holder : c.holder with
      | none =>
          rw [Explained, holder] at explained
          exact explained.tail (.internal does)
      | some owner =>
          rw [Explained, holder] at explained
          obtain ⟨s, before, first, serial, enters, alone⟩ := explained
          by_cases same : thread = owner
          · subst same
            refine ⟨s, before, first, ?_, enters, ?_⟩
            · simpa only [Function.update_idem] using serial
            · simpa only [Function.update_self] using alone.tail (.internal does)
          · refine ⟨s, before, first, ?_, enters, ?_⟩
            · rw [Function.update_comm same]
              refine serial.tail (.internal ?_)
              rwa [Function.update_of_ne same]
            · simpa only [Function.update_of_ne (Ne.symm same)] using alone

/-- Every run of guarded code from outside all sections is explained, by induction on the run. -/
theorem Guarded.explained (guarded : Guarded code inside) {start c : Config Shared Local}
    (outside : ∀ thread, ¬ inside thread (start.locals thread)) (free : start.holder = none)
    (run : ReflTransGen (AnyStep code) start c)
    : HolderInside inside c ∧ Explained code start c := by
  induction run with
  | refl =>
      refine ⟨fun thread => ?_, ?_⟩
      · rw [free]
        exact ⟨fun entered => absurd entered (outside thread), nofun⟩
      · rw [Explained, free]
  | tail _ step ih =>
      obtain ⟨held, explained⟩ := ih
      exact ⟨guarded.holderInside_step held step, guarded.explained_step held explained step⟩

/-- Where the lock is free, a run ends where a run of whole sections ends. -/
theorem Guarded.serializable (guarded : Guarded code inside) {start c : Config Shared Local}
    (outside : ∀ thread, ¬ inside thread (start.locals thread)) (free : start.holder = none)
    (run : ReflTransGen (AnyStep code) start c) (freed : c.holder = none)
    : ReflTransGen (Serial code) (start.shared, start.locals) (c.shared, c.locals) := by
  have explained := (guarded.explained outside free run).2
  rwa [Explained, freed] at explained

/-- What a thread that holds the lock sees is its own work on what whole sections have left. -/
theorem Guarded.undisturbed (guarded : Guarded code inside) {start c : Config Shared Local}
    (outside : ∀ thread, ¬ inside thread (start.locals thread)) (free : start.holder = none)
    (run : ReflTransGen (AnyStep code) start c) {thread : Thread} (holds : c.holder = some thread)
    : ∃ s before first,
        ReflTransGen (Serial code) (start.shared, start.locals)
          (s, Function.update c.locals thread before)
        ∧ code thread before = .lock first
        ∧ ReflTransGen (Solo code thread) (s, first) (c.shared, c.locals thread) := by
  have explained := (guarded.explained outside free run).2
  rwa [Explained, holds] at explained

end Runs

end CriticalSection
