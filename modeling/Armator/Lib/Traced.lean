/-! Computations on a state that log events and may stop before their end, and the one rule for
each way to build them.
-/

/-- How a computation went: what it logged, and its result with the new state or what stopped it. -/
structure Ran (Event Stop State α : Type) where
  events : List Event
  result : Except Stop (α × State)

/-- A computation on a state. -/
def Traced (Event Stop State α : Type) : Type :=
  State → Ran Event Stop State α

namespace Traced

variable {Event Stop State α β Item : Type}

def done (a : α) : Traced Event Stop State α :=
  fun s => { events := [], result := .ok (a, s) }

/-- The second computation goes on where the first one ends, unless that one stops. -/
def andThen (first : Traced Event Stop State α) (second : α → Traced Event Stop State β)
    : Traced Event Stop State β :=
  fun s =>
    match (first s).result with
    | .ok (a, t) =>
        { events := (first s).events ++ (second a t).events, result := (second a t).result }
    | .error reason => { events := (first s).events, result := .error reason }

instance : Monad (Traced Event Stop State) where
  pure := done
  bind := andThen

theorem andThen_done (x : Traced Event Stop State α) : andThen x done = x := by
  funext s
  rw [andThen]
  cases h : x s with
  | mk events result =>
      cases result with
      | ok ended => simp only [done, List.append_nil]
      | error reason => rfl

def log (event : Event) : Traced Event Stop State Unit :=
  fun s => { events := [event], result := .ok ((), s) }

def stop (reason : Stop) : Traced Event Stop State α :=
  fun _ => { events := [], result := .error reason }

def get : Traced Event Stop State State :=
  fun s => { events := [], result := .ok (s, s) }

def modify (change : State → State) : Traced Event Stop State Unit :=
  fun s => { events := [], result := .ok ((), change s) }

/-- One computation for each item, one after the other. -/
def each : List Item → (Item → Traced Event Stop State Unit) → Traced Event Stop State Unit
  | [], _ => pure ()
  | item :: rest, body => body item >>= fun _ => each rest body

/-- From the state `s` the computation logs allowed events only, and ends in a result and state
with the postcondition or is stopped by one of the given reasons.
-/
def Meets (allowed : Event → Prop) (stopped : Stop → Prop) (post : α → State → Prop)
    (x : Traced Event Stop State α) (s : State)
    : Prop :=
  (∀ event ∈ (x s).events, allowed event)
  ∧ match (x s).result with
    | .ok (a, t) => post a t
    | .error reason => stopped reason

section Rules

variable {allowed : Event → Prop} {stopped : Stop → Prop} {s : State}

@[simp]
theorem meets_pure {post : α → State → Prop} (a : α)
    : Meets allowed stopped post (pure a) s ↔ post a s :=
  and_iff_right fun _ member => absurd member List.not_mem_nil

/-- A sequence meets what its first part meets with the second part as postcondition. -/
@[simp]
theorem meets_bind {post : β → State → Prop} (first : Traced Event Stop State α)
    (second : α → Traced Event Stop State β)
    : Meets allowed stopped post (first >>= second) s
      ↔ Meets allowed stopped (fun a t => Meets allowed stopped post (second a) t) first s := by
  change Meets allowed stopped post (andThen first second) s ↔ _
  unfold Meets andThen
  cases (first s).result with
  | ok ended =>
      simp only [List.mem_append, or_imp, forall_and]
      exact and_assoc
  | error reason => rfl

@[simp]
theorem meets_log {post : Unit → State → Prop} (event : Event)
    : Meets allowed stopped post (log event) s ↔ allowed event ∧ post () s := by
  simp only [Meets, log, List.mem_singleton, forall_eq]

@[simp]
theorem meets_stop {post : α → State → Prop} (reason : Stop)
    : Meets allowed stopped post (stop reason) s ↔ stopped reason :=
  and_iff_right fun _ member => absurd member List.not_mem_nil

@[simp]
theorem meets_get {post : State → State → Prop}
    : Meets allowed stopped post get s ↔ post s s :=
  and_iff_right fun _ member => absurd member List.not_mem_nil

@[simp]
theorem meets_modify {post : Unit → State → Prop} (change : State → State)
    : Meets allowed stopped post (modify change) s ↔ post () (change s) :=
  and_iff_right fun _ member => absurd member List.not_mem_nil

@[simp]
theorem meets_each_nil {post : Unit → State → Prop} (body : Item → Traced Event Stop State Unit)
    : Meets allowed stopped post (each [] body) s ↔ post () s :=
  meets_pure ()

@[simp]
theorem meets_each_cons {post : Unit → State → Prop} (item : Item) (rest : List Item)
    (body : Item → Traced Event Stop State Unit)
    : Meets allowed stopped post (each (item :: rest) body) s
      ↔ Meets allowed stopped (fun _ t => Meets allowed stopped post (each rest body) t)
          (body item) s :=
  meets_bind (body item) fun _ => each rest body

theorem meets_each_append {post : Unit → State → Prop} (first second : List Item)
    (body : Item → Traced Event Stop State Unit)
    : Meets allowed stopped post (each (first ++ second) body) s
      ↔ Meets allowed stopped (fun _ t => Meets allowed stopped post (each second body) t)
          (each first body) s := by
  induction first generalizing s with
  | nil => rw [List.nil_append, meets_each_nil]
  | cons item rest ih => simp only [List.cons_append, meets_each_cons, ih]

/-- A loop whose body, under some condition, takes each state of a sequence to the next one, by
induction on its length.
-/
theorem meets_each_range_iff {post : Unit → State → Prop} (state : Nat → State)
    (condition : Nat → Prop) (body : Nat → Traced Event Stop State Unit) (n : Nat)
    (step
      : ∀ k < n, ∀ next : Unit → State → Prop,
          Meets allowed stopped next (body k) (state k)
          ↔ condition k ∧ next () (state (k + 1)))
    : Meets allowed stopped post (each (List.range n) body) (state 0)
      ↔ (∀ k < n, condition k) ∧ post () (state n) := by
  induction n generalizing post with
  | zero =>
      rw [List.range_zero, meets_each_nil]
      exact (and_iff_right fun k below => absurd below (Nat.not_lt_zero k)).symm
  | succ n ih =>
      rw [List.range_succ, meets_each_append, ih fun k below => step k (Nat.lt_succ_of_lt below),
        meets_each_cons, step n (Nat.lt_succ_self n), meets_each_nil, ← and_assoc]
      refine and_congr_left fun _ => ?_
      constructor
      · rintro ⟨earlier, last⟩ k below
        rcases Nat.lt_succ_iff_lt_or_eq.mp below with before | rfl
        · exact earlier k before
        · exact last
      · intro all
        exact ⟨fun k below => all k (Nat.lt_succ_of_lt below), all n (Nat.lt_succ_self n)⟩

theorem meets_each_range {post : Unit → State → Prop} (state : Nat → State)
    (body : Nat → Traced Event Stop State Unit) (n : Nat)
    (step
      : ∀ k < n, ∀ next : Unit → State → Prop,
          Meets allowed stopped next (body k) (state k) ↔ next () (state (k + 1)))
    : Meets allowed stopped post (each (List.range n) body) (state 0) ↔ post () (state n) := by
  rw [meets_each_range_iff state (fun _ => True) body n fun k below next =>
    (step k below next).trans (and_iff_right trivial).symm]
  exact and_iff_right fun _ _ => trivial

/-- Without a condition on the end only the events count. -/
theorem meets_events_iff (x : Traced Event Stop State α)
    : Meets allowed (fun _ => True) (fun _ _ => True) x s
      ↔ ∀ event ∈ (x s).events, allowed event := by
  unfold Meets
  split
  · exact and_iff_left trivial
  · exact and_iff_left trivial

/-- A computation that nothing may stop ends. -/
theorem Meets.ends {post : α → State → Prop} {x : Traced Event Stop State α}
    (met : Meets allowed (fun _ => False) post x s)
    : ∃ a t, (x s).result = .ok (a, t) ∧ post a t := by
  obtain ⟨-, ended⟩ := met
  cases result : (x s).result with
  | ok out =>
      rw [result] at ended
      exact ⟨out.1, out.2, rfl, ended⟩
  | error reason =>
      rw [result] at ended
      exact ended.elim

/-- A computation that ends is not stopped by anything. -/
theorem Meets.of_ends {post : α → State → Prop} {x : Traced Event Stop State α}
    (met : Meets allowed stopped post x s) (ends : ∃ a t, (x s).result = .ok (a, t))
    : Meets allowed (fun _ => False) post x s := by
  obtain ⟨a, t, result⟩ := ends
  obtain ⟨logged, ended⟩ := met
  refine ⟨logged, ?_⟩
  rw [result] at ended ⊢
  exact ended

theorem Meets.mono {post other : α → State → Prop} {x : Traced Event Stop State α}
    (met : Meets allowed stopped post x s) (weaker : ∀ a t, post a t → other a t)
    : Meets allowed stopped other x s := by
  obtain ⟨logged, ended⟩ := met
  refine ⟨logged, ?_⟩
  cases result : (x s).result with
  | ok out =>
      rw [result] at ended
      exact weaker _ _ ended
  | error reason =>
      rw [result] at ended
      exact ended

end Rules

/-- As far as `view` shows them, the events are those expected, or the first ones of them if the
computation stops.
-/
def Logs (view : Event → Option β) (expected : List β) (x : Traced Event Stop State α) : Prop :=
  ∀ s, (x s).events.filterMap view <+: expected
    ∧ ∀ a t, (x s).result = .ok (a, t) → (x s).events.filterMap view = expected

section Logs

variable {γ : Type} {view : Event → Option γ}

theorem logs_pure (a : α) : Logs view [] (pure a : Traced Event Stop State α) :=
  fun _ => ⟨List.nil_prefix, fun _ _ _ => rfl⟩

theorem logs_log (event : Event)
    : Logs view (view event).toList (log event : Traced Event Stop State Unit) := by
  have single : [event].filterMap view = (view event).toList := by
    rw [List.filterMap_cons]
    cases view event <;> rfl
  exact fun _ => ⟨single ▸ List.prefix_rfl, fun _ _ _ => single⟩

/-- A computation that stops may have been expected to log anything. -/
theorem logs_stop (expected : List γ) (reason : Stop)
    : Logs view expected (stop reason : Traced Event Stop State α) :=
  fun _ => ⟨List.nil_prefix, fun _ _ ended => nomatch ended⟩

theorem logs_get : Logs view [] (get : Traced Event Stop State State) :=
  fun _ => ⟨List.nil_prefix, fun _ _ _ => rfl⟩

theorem logs_modify (change : State → State)
    : Logs view [] (modify change : Traced Event Stop State Unit) :=
  fun _ => ⟨List.nil_prefix, fun _ _ _ => rfl⟩

theorem Logs.bind {first : List γ} {second : List γ} {x : Traced Event Stop State α}
    {y : α → Traced Event Stop State β} (logsFirst : Logs view first x)
    (logsSecond : ∀ a, Logs view second (y a))
    : Logs view (first ++ second) (x >>= y) := by
  intro s
  obtain ⟨start, whole⟩ := logsFirst s
  have unfolded : (x >>= y) s = andThen x y s := rfl
  rw [unfolded, andThen]
  cases result : (x s).result with
  | ok ended =>
      obtain ⟨a, t⟩ := ended
      obtain ⟨startSecond, wholeSecond⟩ := logsSecond a t
      have logged := whole a t result
      simp only [List.filterMap_append, logged]
      exact ⟨(List.prefix_append_right_inj first).mpr startSecond,
        fun b u ended => congrArg (first ++ ·) (wholeSecond b u ended)⟩
  | error reason =>
      exact ⟨start.trans (List.prefix_append first second), fun _ _ ended => nomatch ended⟩

end Logs

end Traced
