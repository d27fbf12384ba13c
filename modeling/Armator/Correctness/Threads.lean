import Armator.Correctness.Retransmission
import Armator.Correctness.ThreadSections
import Armator.Correctness.TokenStreams

/-! The two threads of the simulator: whatever their order of steps, the processor and the replies
are those of whole requests and whole interrupts, one after the other.
-/

namespace Armator.Gdb

open CText Traced CriticalSection Relation

variable {env : Env} {behind : Nat → List (BitVec 8)} {cut : Cut env}

-----------------------------------------------------------------------------------------
-- Whole requests and whole interrupts
-----------------------------------------------------------------------------------------

/-- What the simulator does next, if it does one thing after the other: the action of a token that
gdb has sent, or an exception for a byte of a sender of interrupts.
-/
abbrev Turn := Token ⊕ BitVec 8

/-- Some turns one after the other; the tokens count from `n`. -/
def turns (env : Env) (behind : Nat → List (BitVec 8)) : Nat → List Turn → Scan Unit
  | _, [] => pure ()
  | n, .inl token :: rest => do
      action env (behind n) token
      turns env behind (n + 1) rest
  | n, .inr irq :: rest => do
      modify fun data => data.withArm (armException data.gdb.arm irq)
      turns env behind n rest

theorem turns_append (env : Env) (behind : Nat → List (BitVec 8)) (n : Nat) (first second : List Turn)
    : turns env behind n (first ++ second)
      = turns env behind n first >>= fun _ =>
        turns env behind (n + (first.filterMap Sum.getLeft?).length) second := by
  induction first generalizing n with
  | nil => exact (pure_bind () fun _ => turns env behind n second).symm
  | cons turn rest ih =>
      cases turn with
      | inl token =>
          simp only [List.cons_append, turns, ih, bind_assoc, List.filterMap_cons, Sum.getLeft?,
            List.length_cons, Nat.add_assoc, Nat.add_comm 1]
      | inr irq =>
          simp only [List.cons_append, turns, ih, bind_assoc, List.filterMap_cons, Sum.getLeft?]

/-- The bytes for which `arm_exception` has not been called. -/
def IrqListener.remaining : IrqListener → List (BitVec 8)
  | .reading rest => rest
  | .locking irq rest => irq :: rest
  | .handling _ rest => rest

/-- `gdb_listener` has come to its end, or has been stopped. -/
def GdbListener.Over : GdbListener → Prop
  | .ended _ => True
  | .stopped _ _ => True
  | _ => False

/-- Where `gdb_listener` waits outside the lock, if the turns of `order` have left the data `before`.
-/
def GdbListener.Waits (env : Env) (behind : Nat → List (BitVec 8)) (cut : Cut env)
    (found : List Token) (order : List Turn) (before : ParserData)
    : GdbListener → Prop
  | .scanning n rest data =>
      order.filterMap Sum.getLeft? ++ rest = found
      ∧ n = (order.filterMap Sum.getLeft?).length
      ∧ before = data.withArm before.gdb.arm
  | .locking n rest data pieces =>
      ∃ token index packet,
        order.filterMap Sum.getLeft? ++ token :: rest = found
        ∧ n = (order.filterMap Sum.getLeft?).length
        ∧ (beforeHandler env (behind n) token before).result
          = .ok (some (index, packet), data.withArm before.gdb.arm)
        ∧ pieces = cut.request index packet
  | _ => False

/-- A state between sections is that after some turns. -/
def InOrder (env : Env) (behind : Nat → List (BitVec 8)) (cut : Cut env) (found : List Token)
    (irqs : List (BitVec 8)) (start : ParserData) (state : ArmCore × (∀ listener, Where listener))
    : Prop :=
  ∃ (order : List Turn) (before : ParserData),
    order.filterMap Sum.getRight? ++ IrqListener.remaining (state.2 .irq) = irqs
    ∧ (turns env behind 0 order start).result = .ok ((), before)
    ∧ before.gdb.arm = state.1
    ∧ (¬ GdbListener.Over (state.2 .gdb)
      → GdbListener.Waits env behind cut found order before (state.2 .gdb))

/-- One more turn that ends. -/
theorem turns_snoc {n : Nat} {order : List Turn} {turn : Turn} {start middle after : ParserData}
    (before : (turns env behind n order start).result = .ok ((), middle))
    (last
      : (turns env behind (n + (order.filterMap Sum.getLeft?).length) [turn] middle).result
        = .ok ((), after))
    : (turns env behind n (order ++ [turn]) start).result = .ok ((), after) := by
  rw [turns_append, bind_result before, last]

theorem turns_irq (n : Nat) (irq : BitVec 8) (data : ParserData)
    : (turns env behind n [.inr irq] data).result
      = .ok ((), data.withArm (armException data.gdb.arm irq)) :=
  rfl

theorem turns_token (n : Nat) (token : Token) (data : ParserData)
    : (turns env behind n [.inl token] data).result
      = ((beforeHandler env (behind n) token >>= afterLock env) data).result := by
  have single : turns env behind n [.inl token] = action env (behind n) token := bind_pure_unit
  rw [single, action_eq]

theorem tokens_snoc (order : List Turn) (token : Token)
    : (order ++ [Sum.inl token]).filterMap Sum.getLeft? = order.filterMap Sum.getLeft? ++ [token] :=
  List.filterMap_append

theorem irqs_snoc_token (order : List Turn) (token : Token)
    : (order ++ [Sum.inl token]).filterMap Sum.getRight? = order.filterMap Sum.getRight? := by
  rw [List.filterMap_append]
  exact List.append_nil _

theorem tokens_snoc_irq (order : List Turn) (irq : BitVec 8)
    : (order ++ [Sum.inr irq]).filterMap Sum.getLeft? = order.filterMap Sum.getLeft? := by
  rw [List.filterMap_append]
  exact List.append_nil _

theorem irqs_snoc (order : List Turn) (irq : BitVec 8)
    : (order ++ [Sum.inr irq]).filterMap Sum.getRight? = order.filterMap Sum.getRight? ++ [irq] :=
  List.filterMap_append

/-- The scanner leaves the processor alone. -/
theorem beforeHandler_arm {ahead : List (BitVec 8)} {token : Token} {before data : ParserData}
    {found : Option (BitVec 8 × List (BitVec 8))}
    (acted : (beforeHandler env ahead token before).result = .ok (found, data))
    : data.gdb.arm = before.gdb.arm := by
  have again : (beforeHandler env ahead token before).result
      = .ok (found, data.withArm before.gdb.arm) :=
    (blind_beforeHandler env ahead token).result acted
  rw [acted] at again
  have same : data = data.withArm before.gdb.arm := (Prod.mk.inj (Except.ok.inj again)).2
  rw [same]
  rfl

/-- A step of `gdb_listener` between sections: the turns go on with a token that needs no lock, or
stay as they are.
-/
theorem GdbListener.Waits.internal {found : List Token} {start before : ParserData}
    {order : List Turn} {here next : GdbListener}
    (waits : here.Waits env behind cut found order before)
    (ran : (turns env behind 0 order start).result = .ok ((), before))
    (does : gdbListener env behind cut here = .internal next)
    : ∃ more after,
        (order ++ more).filterMap Sum.getRight? = order.filterMap Sum.getRight?
        ∧ (turns env behind 0 (order ++ more) start).result = .ok ((), after)
        ∧ after.gdb.arm = before.gdb.arm
        ∧ (¬ next.Over → next.Waits env behind cut found (order ++ more) after) := by
  have stays (waitsNext : ¬ next.Over → next.Waits env behind cut found order before)
      : ∃ more after,
          (order ++ more).filterMap Sum.getRight? = order.filterMap Sum.getRight?
          ∧ (turns env behind 0 (order ++ more) start).result = .ok ((), after)
          ∧ after.gdb.arm = before.gdb.arm
          ∧ (¬ next.Over → next.Waits env behind cut found (order ++ more) after) := by
    refine ⟨[], before, ?_⟩
    rw [List.append_nil]
    exact ⟨rfl, ran, rfl, waitsNext⟩
  cases here with
  | scanning n rest data =>
      obtain ⟨split, position, same⟩ := waits
      cases rest with
      | nil =>
          rw [gdbListener] at does
          rcases acted : (handleError data).result with reason | ended
          · rw [acted] at does
            cases does
            exact stays fun runs => absurd trivial runs
          · rw [acted] at does
            cases does
            exact stays fun runs => absurd trivial runs
      | cons token rest =>
          rw [gdbListener] at does
          rcases acted : (beforeHandler env (behind n) token data).result
            with reason | ⟨_ | ⟨index, packet⟩, ended⟩
          · rw [acted] at does
            cases does
            exact stays fun runs => absurd trivial runs
          · rw [acted] at does
            cases does
            have passed : (beforeHandler env (behind n) token before).result
                = .ok (none, ended.withArm before.gdb.arm) := by
              rw [same]
              exact (blind_beforeHandler env (behind n) token).result acted
            refine ⟨[.inl token], ended.withArm before.gdb.arm, irqs_snoc_token order token,
              turns_snoc ran ?_, rfl, fun _ => ⟨?_, ?_, rfl⟩⟩
            · rw [Nat.zero_add, ← position, turns_token, bind_result passed]
              rfl
            · rw [tokens_snoc, ← split, List.append_assoc]
              rfl
            · rw [tokens_snoc, List.length_append, position]
              rfl
          · rw [acted] at does
            cases does
            have passed : (beforeHandler env (behind n) token before).result
                = .ok (some (index, packet), ended.withArm before.gdb.arm) := by
              rw [same]
              exact (blind_beforeHandler env (behind n) token).result acted
            exact stays fun _ => ⟨token, index, packet, split, position, passed, rfl⟩
  | locking n rest data pieces => cases does
  | handling n rest data pieces => exact waits.elim
  | ended data => cases does
  | stopped underLock reason => cases does

/-- A section of `gdb_listener` is the turn of a token. -/
theorem GdbListener.Waits.whole {found : List Token} {start before : ParserData}
    {order : List Turn} {t : ArmCore} {here first last next : GdbListener}
    (waits : here.Waits env behind cut found order before)
    (ran : (turns env behind 0 order start).result = .ok ((), before))
    (enters : gdbListener env behind cut here = .lock first)
    (runs
      : ReflTransGen (Solo (listeners env behind cut) .gdb) (before.gdb.arm, first) (t, last))
    (leaves : gdbListener env behind cut last = .unlock next)
    : ∃ token after,
        (turns env behind 0 (order ++ [.inl token]) start).result = .ok ((), after)
        ∧ after.gdb.arm = t
        ∧ next.Waits env behind cut found (order ++ [.inl token]) after := by
  obtain ⟨n, rest, data, pieces, rfl, rfl⟩ := gdbListener_lock enters
  obtain ⟨m, later, ended, rfl, rfl⟩ := gdbListener_unlock leaves
  obtain ⟨token, index, packet, split, position, acted, rfl⟩ := waits
  obtain ⟨rfl, rfl, -, handled⟩ := reaches_of_solo runs rfl
  have done : (calling (Pieces.done : Handling).whole (ended.withArm t)).result
      = .ok ((), ended.withArm t) := by
    rw [Pieces.whole, calling_pure]
    rfl
  refine ⟨token, ended.withArm t, turns_snoc ran ?_, rfl, ?_, ?_, rfl⟩
  · rw [Nat.zero_add, ← position, turns_token, bind_result acted, afterLock, ← cut.request_whole,
      handled, done]
  · rw [tokens_snoc, ← split, List.append_assoc]
    rfl
  · rw [tokens_snoc, List.length_append, position]
    rfl

/-- An interrupt between sections changes the processor only. -/
theorem GdbListener.Waits.irq {found : List Token} {order : List Turn} {before : ParserData}
    {here : GdbListener} (irq : BitVec 8) (waits : here.Waits env behind cut found order before)
    : here.Waits env behind cut found (order ++ [.inr irq])
        (before.withArm (armException before.gdb.arm irq)) := by
  cases here with
  | scanning n rest data =>
      obtain ⟨split, position, same⟩ := waits
      have changed := congrArg (ParserData.withArm · (armException before.gdb.arm irq)) same
      rw [GdbListener.Waits, tokens_snoc_irq]
      exact ⟨split, position, changed⟩
  | locking n rest data pieces =>
      obtain ⟨token, index, packet, split, position, acted, rfl⟩ := waits
      have blind : Blind (replaceArm (armException before.gdb.arm irq))
          (beforeHandler env (behind n) token) :=
        blind_beforeHandler env (behind n) token
      have passed := blind.result acted
      rw [GdbListener.Waits, tokens_snoc_irq]
      exact ⟨token, index, packet, split, position, passed, rfl⟩
  | handling n rest data pieces => exact waits
  | ended data => exact waits
  | stopped underLock reason => exact waits

theorem not_over_of_internal {here next : GdbListener}
    (does : gdbListener env behind cut here = .internal next)
    : ¬ here.Over := by
  cases here with
  | ended data => cases does
  | stopped underLock reason => cases does
  | scanning n rest data => exact id
  | locking n rest data pieces => exact id
  | handling n rest data pieces => exact id

theorem not_over_of_lock {here next : GdbListener}
    (does : gdbListener env behind cut here = .lock next)
    : ¬ here.Over := by
  obtain ⟨n, rest, data, pieces, rfl, -⟩ := gdbListener_lock does
  exact id

/-- A section of `irq_listener` is the turn of the byte that it has read. -/
theorem irqListener_whole {s t : ArmCore} {here first last next : IrqListener}
    (enters : irqListener cut here = .lock first)
    (runs : ReflTransGen (Solo (listeners env behind cut) .irq) (s, first) (t, last))
    (leaves : irqListener cut last = .unlock next)
    : ∃ irq, here.remaining = irq :: next.remaining ∧ t = armException s irq := by
  obtain ⟨irq, rest, rfl, rfl⟩ := irqListener_lock enters
  obtain ⟨later, rfl, rfl⟩ := irqListener_unlock leaves
  obtain ⟨rfl, made, all, rfl⟩ := excepted_of_solo runs rfl
  rw [List.append_nil] at all
  exact ⟨irq, rfl, all ▸ cut.exception_whole irq s⟩

/-- A step of the serial machine is a turn, or less than one. -/
theorem InOrder.step {found : List Token} {irqs : List (BitVec 8)} {start : ParserData}
    {state next : ArmCore × (∀ listener, Where listener)}
    (inOrder : InOrder env behind cut found irqs start state)
    (step : Serial (listeners env behind cut) state next)
    : InOrder env behind cut found irqs start next := by
  obtain ⟨order, before, received, ran, same, waits⟩ := inOrder
  cases step with
  | @internal arm locals listener next does =>
      cases listener with
      | gdb =>
          have runs : ¬ GdbListener.Over (locals .gdb) := not_over_of_internal does
          obtain ⟨more, after, noIrq, ranOn, sameArm, waitsNext⟩ := (waits runs).internal ran does
          exact ⟨order ++ more, after, (congrArg (· ++ _) noIrq).trans received, ranOn,
            sameArm.trans same, waitsNext⟩
      | irq =>
          obtain ⟨irq, rest, here, rfl⟩ := irqListener_internal does
          have remaining : IrqListener.remaining (locals .irq) = irq :: rest := by
            rw [here]
            rfl
          exact ⟨order, before, (congrArg (_ ++ ·) remaining.symm).trans received, ran, same, waits⟩
  | @whole s t locals listener first last next enters alone leaves =>
      cases listener with
      | gdb =>
          have runs : ¬ GdbListener.Over (locals .gdb) := not_over_of_lock enters
          obtain ⟨token, after, ranOn, sameArm, waitsNext⟩ :=
            (waits runs).whole ran enters (by rwa [show before.gdb.arm = s from same]) leaves
          exact ⟨order ++ [.inl token], after,
            (congrArg (· ++ _) (irqs_snoc_token order token)).trans received, ranOn, sameArm,
            fun _ => waitsNext⟩
      | irq =>
          obtain ⟨irq, remaining, rfl⟩ := irqListener_whole enters alone leaves
          refine ⟨order ++ [.inr irq], before.withArm (armException before.gdb.arm irq), ?_,
            turns_snoc ran (turns_irq _ irq before), congrArg (armException · irq) same,
            fun runs => (waits runs).irq irq⟩
          rw [irqs_snoc, List.append_assoc]
          exact (congrArg (_ ++ ·) remaining.symm).trans received

theorem inOrder_of_serial (arm : ArmCore) (packet buffer : Nat → BitVec 8)
    (input irqs : List (BitVec 8)) {state : ArmCore × (∀ listener, Where listener)}
    (run
      : ReflTransGen (Serial (listeners env behind cut))
          (arm, (started arm packet buffer input irqs).locals) state)
    : InOrder env behind cut (scanned input) irqs (gdbScannerData arm packet buffer) state := by
  induction run with
  | refl => exact ⟨[], _, rfl, rfl, rfl, fun _ => ⟨rfl, rfl, rfl⟩⟩
  | tail _ step ih => exact ih.step step

/-- However the two threads interleave, between two tokens and with the lock free the scanner's data,
its replies among them, and the processor are those of the tokens and interrupts so far, one after
the other in some order that keeps the order of each sender.
-/
theorem listeners_serializable (env : Env) (behind : Nat → List (BitVec 8)) (cut : Cut env)
    (arm : ArmCore) (packet buffer : Nat → BitVec 8) (input irqs : List (BitVec 8))
    {c : Config ArmCore Where}
    (run : ReflTransGen (AnyStep (listeners env behind cut)) (started arm packet buffer input irqs) c)
    (free : c.holder = none) {n : Nat} {rest : List Token} {data : ParserData}
    (between : c.locals .gdb = .scanning n rest data)
    : ∃ order : List Turn,
        order.filterMap Sum.getLeft? ++ rest = scanned input
        ∧ order.filterMap Sum.getRight? ++ IrqListener.remaining (c.locals .irq) = irqs
        ∧ (turns env behind 0 order (gdbScannerData arm packet buffer)).result
          = .ok ((), data.withArm c.shared) := by
  have serial := (listeners_guarded env behind cut).serializable
    (started_outside arm packet buffer input irqs) rfl run free
  obtain ⟨order, before, received, ran, same, waits⟩ :=
    inOrder_of_serial arm packet buffer input irqs serial
  dsimp only at same waits
  rw [between] at waits
  obtain ⟨split, -, position⟩ := waits id
  rw [position, same] at ran
  exact ⟨order, split, received, ran⟩

-----------------------------------------------------------------------------------------
-- A server that is reset
-----------------------------------------------------------------------------------------

/-- Where the two threads are. -/
def places (gdb : GdbListener) (irq : IrqListener) : ∀ listener, Where listener
  | .gdb => gdb
  | .irq => irq

@[simp]
theorem update_places_gdb (gdb next : GdbListener) (irq : IrqListener)
    : Function.update (places gdb irq) .gdb next = places next irq := by
  funext listener
  cases listener <;> rfl

@[simp]
theorem update_places_irq (gdb : GdbListener) (irq next : IrqListener)
    : Function.update (places gdb irq) .irq next = places gdb next := by
  funext listener
  cases listener <;> rfl

theorem started_eq (arm : ArmCore) (packet buffer : Nat → BitVec 8) (input irqs : List (BitVec 8))
    : started arm packet buffer input irqs
      = { shared := arm
          holder := none
          locals :=
            places (.scanning 0 (scanned input) (gdbScannerData arm packet buffer))
              (.reading irqs) } := by
  rw [started, Config.mk.injEq]
  refine ⟨rfl, rfl, ?_⟩
  funext listener
  cases listener <;> rfl

/-- A step of one of the threads, for the places of both. -/
theorem gdb_steps {code : Code ArmCore Where} {p q : ArmCore} {before after : Option Listener}
    {gdb next : GdbListener} {irq : IrqListener}
    (step
      : AnyStep code ⟨p, before, places gdb irq⟩
          ⟨q, after, Function.update (places gdb irq) .gdb next⟩)
    : AnyStep code ⟨p, before, places gdb irq⟩ ⟨q, after, places next irq⟩ := by
  rwa [update_places_gdb] at step

theorem irq_steps {code : Code ArmCore Where} {p q : ArmCore} {before after : Option Listener}
    {gdb : GdbListener} {irq next : IrqListener}
    (step
      : AnyStep code ⟨p, before, places gdb irq⟩
          ⟨q, after, Function.update (places gdb irq) .irq next⟩)
    : AnyStep code ⟨p, before, places gdb irq⟩ ⟨q, after, places gdb next⟩ := by
  rwa [update_places_irq] at step

theorem scanned_question : scanned (text "$?#3f") = [.packet (text "$?#3f")] :=
  scanned_frame ⟨text "?", text "3f", rfl, by decide, rfl, by decide⟩ []

/-- A server that has started and acknowledged a request. -/
def acknowledging : ParserData :=
  { oneWordScanner with gdb := oneWordScanner.gdb.acknowledged }

set_option maxRecDepth 4000 in
theorem beforeHandler_question
    : (beforeHandler .plain [] (.packet (text "$?#3f")) oneWordScanner).result
      = .ok (some (ascii '?', terminated (text "$?#3f" ++ [0]) 5), acknowledging) :=
  rfl

/-- A request is answered, and then comes a reset that was sent before. -/
theorem run_reset
    : ∃ data,
        ReflTransGen (AnyStep (listeners .plain (fun _ => []) (perAccess .plain)))
          (started (oneWord 4 0) (fun _ => 0) (fun _ => 0) (text "$?#3f") [1])
          { shared := armException (oneWord 4 0) 1
            holder := none
            locals := places (.scanning 1 [] data) (.reading []) } := by
  let packet := terminated (text "$?#3f" ++ [0]) 5
  let pieces := requestPieces .plain (ascii '?') packet
  let last : List (ArmCore → ArmCore) := [fun p => armWriteUsrRegister p 15 0]
  have begins
      : gdbListener .plain (fun _ => []) (perAccess .plain)
          (.scanning 0 [.packet (text "$?#3f")] oneWordScanner)
        = .internal (.locking 0 [] acknowledging pieces) := by
    rw [gdbListener, beforeHandler_question]
    rfl
  obtain ⟨data, answers⟩
      : ∃ data,
          pieceOnArm (handling .plain (ascii '?') packet) acknowledging
            (fun _ after => .handling 0 [] after .done) (oneWord 4 0)
          = (oneWord 4 0, .handling 0 [] data .done) :=
    ⟨_, rfl⟩
  refine ⟨data, ?_⟩
  rw [started_eq, scanned_question]
  refine .head (irq_steps (.internal rfl)) ?_
  refine .head (gdb_steps (.internal begins)) ?_
  refine .head (gdb_steps (.lock rfl rfl)) ?_
  refine .head (gdb_steps (.of_access rfl answers)) ?_
  refine .head (gdb_steps (.unlock rfl)) ?_
  refine .head (irq_steps (.lock rfl rfl)) ?_
  refine .head (irq_steps (.of_access rfl rfl)) ?_
  refine .head (irq_steps (.of_access rfl rfl)) ?_
  exact .single (irq_steps (.unlock rfl))

/-- The request and the reset, one after the other. -/
theorem reset_serialized
    : ∃ (data : ParserData) (order : List Turn),
        order.filterMap Sum.getLeft? ++ [] = scanned (text "$?#3f")
        ∧ order.filterMap Sum.getRight? ++ [] = [1]
        ∧ (turns .plain (fun _ => []) 0 order oneWordScanner).result
          = .ok ((), data.withArm (armException (oneWord 4 0) 1)) := by
  obtain ⟨data, run⟩ := run_reset
  exact ⟨data, listeners_serializable .plain (fun _ => []) (perAccess .plain) (oneWord 4 0)
    (fun _ => 0) (fun _ => 0) (text "$?#3f") [1] run rfl rfl⟩

end Armator.Gdb
