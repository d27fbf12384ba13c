import Mathlib.Logic.Relation

/-! Runs of a transition system and what they keep. -/

universe u

/-- Where runs start and what one step can do. -/
structure TransitionSystem (State : Type u) where
  init : State → Prop
  step : State → State → Prop

namespace TransitionSystem

open Relation

variable {State : Type u} (system : TransitionSystem State)

/-- A state that a run can end in. -/
def Reachable (s : State) : Prop :=
  ∃ start, system.init start ∧ ReflTransGen system.step start s

variable {system}

theorem Reachable.of_init {s : State} (starts : system.init s) : system.Reachable s :=
  ⟨s, starts, .refl⟩

theorem Reachable.next {s t : State} (reached : system.Reachable s) (moves : system.step s t)
    : system.Reachable t := by
  obtain ⟨start, starts, run⟩ := reached
  exact ⟨start, starts, run.tail moves⟩

/-- A reachable state keeps what every step keeps from the state its run started in, by induction
on the run.
-/
theorem Reachable.related {keeps : State → State → Prop} (refl : ∀ s, keeps s s)
    (trans : ∀ {r s t}, keeps r s → keeps s t → keeps r t)
    (steps : ∀ {s t}, system.step s t → keeps s t) {s : State} (reached : system.Reachable s)
    : ∃ start, system.init start ∧ keeps start s := by
  obtain ⟨start, starts, run⟩ := reached
  refine ⟨start, starts, ?_⟩
  induction run with
  | refl => exact refl start
  | tail _ moves ih => exact trans ih (steps moves)

end TransitionSystem
