import Armator.Correctness.OpenConnection
import Armator.Correctness.ThreadPieces

/-! The critical sections of the two threads: what is done outside the lock does not depend on the
processor, and a section that runs alone is a handler or an exception as a whole.
-/

namespace Armator.Gdb

open CText Traced CriticalSection Relation

-----------------------------------------------------------------------------------------
-- A token as its part up to the lock and its handler
-----------------------------------------------------------------------------------------

theorem inSession_eq_calling (call : Act Unit) : inSession call = calling call := by
  funext data
  rw [inSession, calling]
  cases (call data.gdb).result <;> rfl

theorem calling_pure {α : Type} (a : α) : calling (pure a) = pure a := by
  funext data
  change Ran.mk _ (Except.ok (a, { data with closed := data.closed || false })) = _
  rw [Bool.or_false]
  rfl

theorem calling_result {α : Type} {call : Act α} {data after : ParserData} {a : α}
    (ended : (calling call data).result = .ok (a, after))
    : (call data.gdb).result = .ok (a, after.gdb) := by
  rw [calling] at ended
  cases ran : (call data.gdb).result with
  | error reason =>
      rw [ran] at ended
      cases ended
  | ok inner =>
      rw [ran] at ended
      cases ended
      rfl

theorem calling_bind {α β : Type} (call : Act α) (next : α → Act β)
    : calling (call >>= next) = calling call >>= fun a => calling (next a) := by
  funext data
  change calling (andThen call next) data = andThen (calling call) _ data
  simp only [calling, andThen]
  cases first : (call data.gdb).result with
  | error reason => rfl
  | ok middle =>
      obtain ⟨a, gdb⟩ := middle
      cases second : (next a gdb).result with
      | error reason => simp only [second, List.map_append]
      | ok last =>
          simp only [second, List.map_append, List.contains_append, Bool.or_assoc]

/-- The handler for the index that a packet has been found to have. -/
def handlingAny (env : Env) (packet : List (BitVec 8)) : Option (BitVec 8) → Act Unit
  | some index => handling env index packet
  | none => pure ()

theorem gdbPacketAnalysis_eq_beforeLock (env : Env) (packet : List (BitVec 8)) (length : Nat)
    : gdbPacketAnalysis env packet length
      = beforeLock env packet length >>= handlingAny env (terminated packet length) := by
  simp only [gdbPacketAnalysis, beforeLock, bind_assoc]
  congr 1
  funext given
  split
  · simp only [bind_assoc]
    congr 1
    funext _
    dsimp only [terminated]
    split
    · rename_i handle found
      simp only [found, Option.isSome_some, if_true, pure_bind, handlingAny, handling]
    · rename_i found
      simp only [found, Option.isSome_none, Bool.false_eq_true, if_false, bind_assoc, pure_bind,
        handlingAny, bind_pure_unit]
  · simp only [bind_assoc, pure_bind, handlingAny, bind_pure_unit]

/-- The handler that comes after the lock, if any. -/
def afterLock (env : Env) : Option (BitVec 8 × List (BitVec 8)) → Scan Unit
  | some (index, packet) => calling (handling env index packet)
  | none => pure ()

/-- The action of a token is its part up to the lock and then its handler. -/
theorem action_eq (env : Env) (behind : List (BitVec 8)) (token : Token)
    : action env behind token = beforeHandler env behind token >>= afterLock env := by
  cases token with
  | packet yytext =>
      simp only [action, beforeHandler, bind_assoc, sending]
      congr 1
      funext _
      congr 1
      funext _
      congr 1
      funext data
      split
      · rfl
      · rw [inSession_eq_calling, gdbPacketAnalysis_eq_beforeLock, calling_bind, bind_assoc]
        congr 1
        funext index
        rw [pure_bind]
        cases index with
        | none => exact calling_pure ()
        | some index => rfl
  | ack => simp only [beforeHandler, bind_assoc, pure_bind, afterLock, bind_pure_unit]
  | retransmission => simp only [beforeHandler, bind_assoc, pure_bind, afterLock, bind_pure_unit]
  | character c => simp only [beforeHandler, bind_assoc, pure_bind, afterLock, bind_pure_unit]
  | echo c => simp only [beforeHandler, bind_assoc, pure_bind, afterLock, bind_pure_unit]

-----------------------------------------------------------------------------------------
-- What is done outside the lock does not depend on the processor
-----------------------------------------------------------------------------------------

theorem Consists.beforeLock (env : Env) (packet : List (BitVec 8)) (length : Nat)
    : Consists False (beforeLock env packet length) := by
  refine (useScanned _ _ _).bind fun given => ?_
  split
  · refine (rioWriten _).bind fun _ => ?_
    dsimp only
    split
    · exact pure _
    · exact (gdbSendData _).bind fun _ => pure _
  · exact (rioWriten _).bind fun _ => pure _

section Blind

variable {arm : ArmCore}

/-- The change of the processor for the scanner's data. -/
def replaceArm (arm : ArmCore) (data : ParserData) : ParserData :=
  data.withArm arm

theorem blind_calling {α : Type} {call : Act α} (consists : Consists False call)
    : Blind (replaceArm arm) (calling call) := by
  intro data
  have same : call (replaceArm arm data).gdb = _ := consists.blind arm data.gdb
  simp only [calling, same]
  cases (call data.gdb).result <;> rfl

theorem blind_sending {call : Act Unit} (consists : Consists False call)
    : Blind (replaceArm arm) (sending call) := by
  refine blind_get_bind (fun _ => rfl) fun data => ?_
  split
  · exact blind_stop _
  · rw [inSession_eq_calling]
    exact blind_calling consists

theorem blind_writeBuffer (index : Nat) (c : BitVec 8)
    : Blind (replaceArm arm) (writeBuffer index c) := by
  refine (blind_log _).bind fun _ => ?_
  split
  · exact blind_modify fun _ => rfl
  · exact blind_stop _

theorem blind_handleError : Blind (replaceArm arm) handleError := by
  refine blind_get_bind (fun _ => rfl) fun data => ?_
  split
  · exact (blind_writeBuffer _ _).bind fun _ => (blind_sending (.rioWriten _)).bind fun _ =>
      blind_modify fun _ => rfl
  · exact blind_pure _

theorem blind_addCharacterToError (c : BitVec 8)
    : Blind (replaceArm arm) (addCharacterToError c) := by
  have put : Blind (replaceArm arm) (do
      let data ← get
      writeBuffer data.len c
      modify fun data => { data with len := data.len + 1 } : Scan Unit) :=
    blind_get_bind (fun _ => rfl) fun _ => (blind_writeBuffer _ _).bind fun _ =>
      blind_modify fun _ => rfl
  refine blind_get_bind (fun _ => rfl) fun data => ?_
  split
  · exact blind_handleError.bind fun _ => put
  · exact (blind_pure _).bind fun _ => put

theorem blind_beforeHandler (env : Env) (behind : List (BitVec 8)) (token : Token)
    : Blind (replaceArm arm) (beforeHandler env behind token) := by
  cases token with
  | ack => exact blind_handleError.bind fun _ => blind_pure _
  | retransmission =>
      refine Blind.bind (blind_handleError.bind fun _ => blind_get_bind (fun _ => rfl) fun data => ?_)
        fun _ => blind_pure _
      split
      · rw [inSession_eq_calling]
        exact blind_calling .gdbTransmitPacket
      · exact blind_sending .gdbTransmitPacket
  | packet yytext =>
      refine blind_handleError.bind fun _ => (blind_log _).bind fun _ =>
        blind_get_bind (fun _ => rfl) fun data => ?_
      split
      · exact blind_stop _
      · exact (blind_calling (.beforeLock _ _ _)).bind fun _ => blind_pure _
  | character c => exact (blind_addCharacterToError c).bind fun _ => blind_pure _
  | echo c => exact (blind_log _).bind fun _ => blind_pure _

end Blind

-----------------------------------------------------------------------------------------
-- The lock
-----------------------------------------------------------------------------------------

def GdbListener.UnderLock : GdbListener → Prop
  | .handling _ _ _ _ => True
  | .stopped underLock _ => underLock = true
  | _ => False

def IrqListener.UnderLock : IrqListener → Prop
  | .handling _ _ => True
  | _ => False

def UnderLock : ∀ listener, Where listener → Prop
  | .gdb => GdbListener.UnderLock
  | .irq => IrqListener.UnderLock

variable {env : Env} {behind : Nat → List (BitVec 8)} {cut : Cut env}

variable (env behind cut) in
/-- The scanner itself does not use the lock. -/
theorem gdbListener_scanning (n : Nat) (rest : List Token) (data : ParserData)
    : ∃ next, gdbListener env behind cut (.scanning n rest data) = .internal next
      ∧ ¬ next.UnderLock := by
  cases rest with
  | nil =>
      rw [gdbListener]
      cases (handleError data).result with
      | ok ended => exact ⟨_, rfl, nofun⟩
      | error reason => exact ⟨_, rfl, nofun⟩
  | cons token rest =>
      rw [gdbListener]
      rcases (beforeHandler env (behind n) token data).result with reason | ⟨_ | _, after⟩
      · exact ⟨_, rfl, nofun⟩
      · exact ⟨_, rfl, nofun⟩
      · exact ⟨_, rfl, nofun⟩

theorem gdbListener_respects (here : GdbListener)
    : (gdbListener env behind cut here).Respects GdbListener.UnderLock here := by
  cases here with
  | scanning n rest data =>
      obtain ⟨next, does, outside⟩ := gdbListener_scanning env behind cut n rest data
      rw [does]
      exact iff_of_false outside nofun
  | locking n rest data pieces => exact ⟨nofun, trivial⟩
  | handling n rest data pieces =>
      cases pieces with
      | done => exact ⟨trivial, nofun⟩
      | piece act next =>
          refine ⟨trivial, fun arm => ?_⟩
          rw [pieceOnArm]
          cases (calling act (data.withArm arm)).result with
          | ok ended => trivial
          | error reason => rfl
  | ended data => trivial
  | stopped underLock reason => trivial

theorem irqListener_respects (here : IrqListener)
    : (irqListener cut here).Respects IrqListener.UnderLock here := by
  cases here with
  | reading rest =>
      cases rest with
      | nil => trivial
      | cons irq rest => exact iff_of_false nofun nofun
  | locking irq rest => exact ⟨nofun, trivial⟩
  | handling writes rest =>
      cases writes with
      | nil => exact ⟨trivial, nofun⟩
      | cons write writes => exact ⟨trivial, fun _ => trivial⟩

/-- The processor is accessed under the lock only. -/
theorem listeners_guarded (env : Env) (behind : Nat → List (BitVec 8)) (cut : Cut env)
    : Guarded (listeners env behind cut) UnderLock
  | .gdb, here => gdbListener_respects here
  | .irq, here => irqListener_respects here

theorem started_outside (arm : ArmCore) (packet buffer : Nat → BitVec 8)
    (input irqs : List (BitVec 8))
    : ∀ listener, ¬ UnderLock listener ((started arm packet buffer input irqs).locals listener)
  | .gdb => nofun
  | .irq => nofun

/-- Only a thread in front of the lock takes it, and only one behind its last piece gives it back. -/
theorem gdbListener_lock {here next : GdbListener}
    (does : gdbListener env behind cut here = .lock next)
    : ∃ n rest data pieces,
        here = .locking n rest data pieces ∧ next = .handling n rest data pieces := by
  cases here with
  | scanning n rest data =>
      obtain ⟨other, scans, -⟩ := gdbListener_scanning env behind cut n rest data
      rw [scans] at does
      cases does
  | locking n rest data pieces => exact ⟨n, rest, data, pieces, rfl, (Instruction.lock.inj does).symm⟩
  | handling n rest data pieces => cases pieces <;> cases does
  | ended data => cases does
  | stopped underLock reason => cases does

theorem gdbListener_unlock {here next : GdbListener}
    (does : gdbListener env behind cut here = .unlock next)
    : ∃ n rest data, here = .handling n rest data .done ∧ next = .scanning (n + 1) rest data := by
  cases here with
  | scanning n rest data =>
      obtain ⟨other, scans, -⟩ := gdbListener_scanning env behind cut n rest data
      rw [scans] at does
      cases does
  | locking n rest data pieces => cases does
  | handling n rest data pieces =>
      cases pieces with
      | done => exact ⟨n, rest, data, rfl, (Instruction.unlock.inj does).symm⟩
      | piece act more => cases does
  | ended data => cases does
  | stopped underLock reason => cases does

theorem irqListener_lock {here next : IrqListener} (does : irqListener cut here = .lock next)
    : ∃ irq rest, here = .locking irq rest ∧ next = .handling (cut.exception irq) rest := by
  cases here with
  | reading rest => cases rest <;> cases does
  | locking irq rest => exact ⟨irq, rest, rfl, (Instruction.lock.inj does).symm⟩
  | handling writes rest => cases writes <;> cases does

theorem irqListener_unlock {here next : IrqListener} (does : irqListener cut here = .unlock next)
    : ∃ rest, here = .handling [] rest ∧ next = .reading rest := by
  cases here with
  | reading rest => cases rest <;> cases does
  | locking irq rest => cases does
  | handling writes rest =>
      cases writes with
      | nil => exact ⟨rest, rfl, (Instruction.unlock.inj does).symm⟩
      | cons write writes => cases does

theorem irqListener_internal {here next : IrqListener}
    (does : irqListener cut here = .internal next)
    : ∃ irq rest, here = .reading (irq :: rest) ∧ next = .locking irq rest := by
  cases here with
  | reading rest =>
      cases rest with
      | nil => cases does
      | cons irq rest => exact ⟨irq, rest, rfl, (Instruction.internal.inj does).symm⟩
  | locking irq rest => cases does
  | handling writes rest => cases writes <;> cases does

-----------------------------------------------------------------------------------------
-- Sections
-----------------------------------------------------------------------------------------

/-- Nothing comes after a stop. -/
theorem not_solo_stopped {arm : ArmCore} {underLock : Bool} {reason : ScannerStop}
    {next : ArmCore × GdbListener}
    : ¬ Solo (listeners env behind cut) .gdb (arm, .stopped underLock reason) next := by
  rintro (does | does)
  · cases does
  · cases does

theorem not_solo_done {arm : ArmCore} {n : Nat} {rest : List Token} {data : ParserData}
    {next : ArmCore × GdbListener}
    : ¬ Solo (listeners env behind cut) .gdb (arm, .handling n rest data .done) next := by
  rintro (does | does)
  · cases does
  · cases does

theorem solo_piece {arm : ArmCore} {n : Nat} {rest : List Token} {data : ParserData} {α : Type}
    {act : Act α} {more : α → Handling} {next : ArmCore × GdbListener}
    (step
      : Solo (listeners env behind cut) .gdb (arm, .handling n rest data (.piece act more)) next)
    : next = pieceOnArm act data (fun a after => .handling n rest after (more a)) arm := by
  rcases step with does | does
  · rw [← Instruction.access.inj does]
  · cases does

/-- The pieces of a handler that have run alone: with those that are left they make the handler.
Witness: induction on the run from its first step, which is the first piece.
-/
theorem reaches_of_solo {first : ArmCore × GdbListener} {s t : ArmCore} {n m : Nat}
    {rest later : List Token} {data after : ParserData} {pieces left : Handling}
    (run
      : ReflTransGen (Solo (listeners env behind cut) .gdb) first
          (t, .handling m later after left))
    (starts : first = (s, .handling n rest data pieces))
    : m = n ∧ later = rest
      ∧ pieces.Reaches (data.withArm s).gdb left (after.withArm t).gdb
      ∧ (calling pieces.whole (data.withArm s)).result
        = (calling left.whole (after.withArm t)).result := by
  induction run using ReflTransGen.head_induction_on generalizing s data pieces with
  | refl =>
      cases starts
      exact ⟨rfl, rfl, .refl, rfl⟩
  | head step others ih =>
      subst starts
      cases pieces with
      | done => exact absurd step not_solo_done
      | piece act more =>
          have next := solo_piece step
          rw [pieceOnArm] at next
          cases ran : (calling act (data.withArm s)).result with
          | error reason =>
              rw [ran] at next
              subst next
              rcases others.cases_head with same | ⟨_, further, _⟩
              · cases congrArg Prod.snd same
              · exact absurd further not_solo_stopped
          | ok ended =>
              obtain ⟨a, between⟩ := ended
              rw [ran] at next
              obtain ⟨sameToken, sameRest, reaches, whole⟩ := ih next
              refine ⟨sameToken, sameRest, .piece (calling_result ran) reaches, ?_⟩
              rw [Pieces.whole, calling_bind, bind_result ran]
              exact whole

/-- The writes of an exception that have been made alone, in front of those that are left. -/
theorem excepted_of_solo {first : ArmCore × IrqListener} {s t : ArmCore}
    {rest later : List (BitVec 8)} {writes left : List (ArmCore → ArmCore)}
    (run : ReflTransGen (Solo (listeners env behind cut) .irq) first (t, .handling left later))
    (starts : first = (s, .handling writes rest))
    : later = rest ∧ ∃ made, writes = made ++ left ∧ t = made.foldl (fun p write => write p) s := by
  induction run using ReflTransGen.head_induction_on generalizing s writes with
  | refl =>
      cases starts
      exact ⟨rfl, [], rfl, rfl⟩
  | head step others ih =>
      subst starts
      cases writes with
      | nil =>
          rcases step with does | does
          · cases does
          · cases does
      | cons write writes =>
          rcases step with @⟨_, _, act, does⟩ | does
          · have next : act s = (write s, .handling writes rest) :=
              congrFun (Instruction.access.inj does).symm s
            obtain ⟨same, made, rfl, last⟩ := ih next
            exact ⟨same, write :: made, rfl, last⟩
          · cases does

end Armator.Gdb
