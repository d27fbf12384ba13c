import Armator.Lib.Traced

/-! Computations cut into pieces, between which the state may be changed from outside, computations
that do not notice such a change, and what a computation that ends has logged.
-/

namespace Traced

variable {Event Stop State α β γ Item : Type}

-----------------------------------------------------------------------------------------
-- Sequences
-----------------------------------------------------------------------------------------

theorem done_andThen (a : α) (f : α → Traced Event Stop State β) : andThen (done a) f = f a := by
  funext s
  simp only [andThen, done, List.nil_append]

theorem andThen_assoc (x : Traced Event Stop State α) (f : α → Traced Event Stop State β)
    (g : β → Traced Event Stop State γ)
    : andThen (andThen x f) g = andThen x fun a => andThen (f a) g := by
  funext s
  simp only [andThen]
  cases (x s).result with
  | error reason => rfl
  | ok ended =>
      obtain ⟨a, t⟩ := ended
      cases rest : (f a t).result with
      | error reason => simp only [rest]
      | ok last => simp only [rest, List.append_assoc]

instance : LawfulMonad (Traced Event Stop State) :=
  LawfulMonad.mk' _ andThen_done done_andThen andThen_assoc

/-- Where a sequence ends, its first part has ended, and its second part went on from there. -/
theorem bind_result {x : Traced Event Stop State α} {f : α → Traced Event Stop State β} {s t : State}
    {a : α} (first : (x s).result = .ok (a, t))
    : ((x >>= f) s).result = (f a t).result := by
  change (andThen x f s).result = _
  rw [andThen, first]

theorem bind_result_error {x : Traced Event Stop State α} {f : α → Traced Event Stop State β}
    {s : State} {reason : Stop} (first : (x s).result = .error reason)
    : ((x >>= f) s).result = .error reason := by
  change (andThen x f s).result = _
  rw [andThen, first]

/-- The second part depends on how the first one ends, and on nothing else. -/
theorem bind_result_congr {x y : Traced Event Stop State α} {f : α → Traced Event Stop State β}
    {s t : State} (same : (x s).result = (y t).result)
    : ((x >>= f) s).result = ((y >>= f) t).result := by
  cases ended : (y t).result with
  | ok last => rw [bind_result (same.trans ended), bind_result ended]
  | error reason => rw [bind_result_error (same.trans ended), bind_result_error ended]

theorem bind_events {x : Traced Event Stop State α} {f : α → Traced Event Stop State β} {s t : State}
    {a : α} (first : (x s).result = .ok (a, t))
    : ((x >>= f) s).events = (x s).events ++ (f a t).events := by
  change (andThen x f s).events = _
  rw [andThen, first]

theorem bind_events_error {x : Traced Event Stop State α} {f : α → Traced Event Stop State β}
    {s : State} {reason : Stop} (first : (x s).result = .error reason)
    : ((x >>= f) s).events = (x s).events := by
  change (andThen x f s).events = _
  rw [andThen, first]

theorem of_bind_result {x : Traced Event Stop State α} {f : α → Traced Event Stop State β}
    {s u : State}
    {b : β} (ended : ((x >>= f) s).result = .ok (b, u))
    : ∃ a t, (x s).result = .ok (a, t) ∧ (f a t).result = .ok (b, u) := by
  cases first : (x s).result with
  | error reason =>
      rw [bind_result_error first] at ended
      exact absurd ended nofun
  | ok middle => exact ⟨middle.1, middle.2, rfl, (bind_result first).symm.trans ended⟩

-----------------------------------------------------------------------------------------
-- Pieces
-----------------------------------------------------------------------------------------

/-- A computation as a sequence of pieces, each of which is done at once. -/
inductive Pieces (Event Stop State : Type) : Type 1 where
  | done
  | piece {α : Type} (act : Traced Event Stop State α) (next : α → Pieces Event Stop State)

namespace Pieces

/-- The computation that the pieces make when nothing comes between them. -/
def whole : Pieces Event Stop State → Traced Event Stop State Unit
  | .done => pure ()
  | .piece act next => act >>= fun a => (next a).whole

/-- A single piece. -/
def single (act : Traced Event Stop State Unit) : Pieces Event Stop State :=
  .piece act fun _ => .done

/-- One piece for each item, and then other ones. -/
def each (items : List Item) (body : Item → Traced Event Stop State Unit)
    (rest : Pieces Event Stop State)
    : Pieces Event Stop State :=
  match items with
  | [] => rest
  | item :: more => .piece (body item) fun _ => each more body rest

@[simp]
theorem whole_single (act : Traced Event Stop State Unit) : (single act).whole = act :=
  andThen_done act

@[simp]
theorem whole_each (items : List Item) (body : Item → Traced Event Stop State Unit)
    (rest : Pieces Event Stop State)
    : (each items body rest).whole = Traced.each items body >>= fun _ => rest.whole := by
  induction items with
  | nil => exact (pure_bind () fun _ => rest.whole).symm
  | cons item more ih => rw [each, whole, ih, Traced.each, bind_assoc]

/-- Some of the pieces are done, one after the other and with nothing between them: those that are
left start in the last state.
-/
inductive Reaches
    : Pieces Event Stop State → State → Pieces Event Stop State → State → Prop
  | refl {pieces : Pieces Event Stop State} {s : State} : Reaches pieces s pieces s
  | piece {α : Type} {act : Traced Event Stop State α} {next : α → Pieces Event Stop State}
      {s t u : State} {a : α} {left : Pieces Event Stop State} (ended : (act s).result = .ok (a, t))
      (others : Reaches (next a) t left u)
      : Reaches (.piece act next) s left u

theorem Reaches.cases_piece {act : Traced Event Stop State α} {next : α → Pieces Event Stop State}
    {left : Pieces Event Stop State} {s u : State} (reaches : Reaches (.piece act next) s left u)
    : (left = .piece act next ∧ u = s)
      ∨ ∃ a t, (act s).result = .ok (a, t) ∧ Reaches (next a) t left u := by
  cases reaches with
  | refl => exact .inl ⟨rfl, rfl⟩
  | piece ended others => exact .inr ⟨_, _, ended, others⟩

theorem Reaches.done {left : Pieces Event Stop State} {s u : State} (reaches : Reaches .done s left u)
    : u = s := by
  cases reaches with
  | refl => rfl

end Pieces

-----------------------------------------------------------------------------------------
-- Changes that a computation does not notice
-----------------------------------------------------------------------------------------

/-- After the change the computation logs and returns what it does without, and the change could as
well be made afterwards.
-/
def Blind (change : State → State) (x : Traced Event Stop State α) : Prop :=
  ∀ s, x (change s)
    = { events := (x s).events, result := (x s).result.map fun ended => (ended.1, change ended.2) }

section Blind

variable {change : State → State}

theorem blind_pure (a : α) : Blind change (pure a : Traced Event Stop State α) :=
  fun _ => rfl

theorem blind_log (event : Event)
    : Blind change (log event : Traced Event Stop State Unit) :=
  fun _ => rfl

theorem blind_stop (reason : Stop) : Blind change (stop reason : Traced Event Stop State α) :=
  fun _ => rfl

theorem blind_modify {f : State → State} (commutes : ∀ s, f (change s) = change (f s))
    : Blind change (modify f : Traced Event Stop State Unit) := by
  intro s
  simp only [modify, commutes, Except.map]

theorem Blind.bind {x : Traced Event Stop State α} {f : α → Traced Event Stop State β}
    (first : Blind change x) (second : ∀ a, Blind change (f a))
    : Blind change (x >>= f) := by
  intro s
  change andThen x f (change s)
    = { events := (andThen x f s).events
        result := (andThen x f s).result.map fun ended => (ended.1, change ended.2) }
  simp only [andThen, first s]
  cases (x s).result with
  | error reason => rfl
  | ok ended => simp only [Except.map, second ended.1 ended.2]

/-- A computation that reads the state is blind if what it does next does not depend on the change.
-/
theorem blind_get_bind {f : State → Traced Event Stop State α} (same : ∀ s, f (change s) = f s)
    (second : ∀ s, Blind change (f s))
    : Blind change (get >>= f) := by
  intro s
  have unfolded : ∀ t, (get >>= f) t = f t t := fun t => by
    change andThen get f t = f t t
    simp only [andThen, get, List.nil_append]
  rw [unfolded, unfolded, same s]
  exact second s s

/-- Where a blind computation ends without the change, it ends with it as well. -/
theorem Blind.result {x : Traced Event Stop State α} (blind : Blind change x) {s t : State} {a : α}
    (ended : (x s).result = .ok (a, t))
    : (x (change s)).result = .ok (a, change t) := by
  rw [blind s, ended]
  rfl

end Blind

-----------------------------------------------------------------------------------------
-- Events of computations that end
-----------------------------------------------------------------------------------------

/-- Where the computation ends, it has logged allowed events only. -/
def EndsWithin (allowed : Event → Prop) (x : Traced Event Stop State α) : Prop :=
  ∀ s a t, (x s).result = .ok (a, t) → ∀ event ∈ (x s).events, allowed event

section EndsWithin

variable {allowed : Event → Prop}

/-- What has ended meets every postcondition that it fulfils. -/
theorem EndsWithin.meets {x : Traced Event Stop State α} (within : EndsWithin allowed x)
    {s t : State} {a : α} (ended : (x s).result = .ok (a, t))
    : Meets allowed (fun _ => False) (fun b u => b = a ∧ u = t) x s := by
  refine ⟨within s a t ended, ?_⟩
  rw [ended]
  exact ⟨rfl, rfl⟩

theorem endsWithin_pure (a : α) : EndsWithin allowed (pure a : Traced Event Stop State α) :=
  fun _ _ _ _ _ member => absurd member List.not_mem_nil

theorem endsWithin_log {event : Event} (isAllowed : allowed event)
    : EndsWithin allowed (log event : Traced Event Stop State Unit) := by
  intro s a t _ logged member
  rwa [List.mem_singleton.mp member]

theorem endsWithin_stop (reason : Stop)
    : EndsWithin allowed (stop reason : Traced Event Stop State α) :=
  fun _ _ _ _ _ member => absurd member List.not_mem_nil

theorem endsWithin_get : EndsWithin allowed (get : Traced Event Stop State State) :=
  fun _ _ _ _ _ member => absurd member List.not_mem_nil

theorem endsWithin_modify (f : State → State)
    : EndsWithin allowed (modify f : Traced Event Stop State Unit) :=
  fun _ _ _ _ _ member => absurd member List.not_mem_nil

theorem EndsWithin.bind {x : Traced Event Stop State α} {f : α → Traced Event Stop State β}
    (first : EndsWithin allowed x) (second : ∀ a, EndsWithin allowed (f a))
    : EndsWithin allowed (x >>= f) := by
  intro s b u ended event member
  obtain ⟨a, t, start, rest⟩ := of_bind_result ended
  rw [bind_events start] at member
  rcases List.mem_append.mp member with early | late
  · exact first s a t start event early
  · exact second a t b u rest event late

end EndsWithin

end Traced
