import Armator.Correctness.Continuing
import Armator.Correctness.HandlerReplies
import Armator.Correctness.Threads

/-! What the processor is at every moment, also inside the sections of the two threads: the thread
that holds the lock finds there what it has done itself.
-/

namespace Armator.Gdb

open CText Traced CriticalSection Relation

variable {env : Env} {behind : Nat → List (BitVec 8)} {cut : Cut env}

-----------------------------------------------------------------------------------------
-- The current request
-----------------------------------------------------------------------------------------

/-- The packet that a handler gets for the text of a token. -/
def handled (yytext ahead : List (BitVec 8)) : List (BitVec 8) :=
  terminated (yytext ++ 0 :: ahead) yytext.length

theorem beforeLock_some {packet : List (BitVec 8)} {length : Nat} {gdb t : Session}
    {index : BitVec 8} (ran : (beforeLock env packet length gdb).result = .ok (some index, t))
    : index = (terminated packet length).getD 1 0 := by
  obtain ⟨given, s, -, ran⟩ := of_bind_result ran
  split at ran
  · obtain ⟨_, u, -, ran⟩ := of_bind_result ran
    dsimp only at ran
    split at ran
    · exact (Option.some.inj (congrArg Prod.fst (Except.ok.inj ran))).symm
    · obtain ⟨_, v, -, ran⟩ := of_bind_result ran
      exact absurd (congrArg Prod.fst (Except.ok.inj ran)) nofun
  · obtain ⟨_, v, -, ran⟩ := of_bind_result ran
    exact absurd (congrArg Prod.fst (Except.ok.inj ran)) nofun

/-- The request that `gdb_packet_analysis` is about to handle is that of the packet. -/
theorem beforeHandler_some {token : Token} {ahead : List (BitVec 8)} {data after : ParserData}
    {index : BitVec 8} {packet : List (BitVec 8)}
    (acted : (beforeHandler env ahead token data).result = .ok (some (index, packet), after))
    : ∃ yytext,
        token = .packet yytext
        ∧ packet = handled yytext ahead
        ∧ index = (handled yytext ahead).getD 1 0 := by
  have quiet {ran : Scan Unit}
      (ended
        : ((ran >>= fun _ => pure none : Scan (Option (BitVec 8 × List (BitVec 8)))) data).result
          = .ok (some (index, packet), after))
      : False := by
    obtain ⟨_, _, -, last⟩ := of_bind_result ended
    exact absurd (congrArg Prod.fst (Except.ok.inj last)) nofun
  cases token with
  | packet yytext =>
      obtain ⟨_, _, -, acted⟩ := of_bind_result acted
      obtain ⟨_, _, -, acted⟩ := of_bind_result acted
      obtain ⟨_, s, -, acted⟩ := of_bind_result acted
      split at acted
      · cases acted
      · obtain ⟨found, t, called, acted⟩ := of_bind_result acted
        cases found with
        | none => exact absurd (congrArg Prod.fst (Except.ok.inj acted)) nofun
        | some other =>
            cases Except.ok.inj acted
            exact ⟨yytext, rfl, rfl, beforeLock_some (calling_result called)⟩
  | ack => exact (quiet acted).elim
  | retransmission => exact (quiet acted).elim
  | character c => exact (quiet acted).elim
  | echo c => exact (quiet acted).elim

-----------------------------------------------------------------------------------------
-- Sections that are open
-----------------------------------------------------------------------------------------

/-- Where `irq_listener` waits outside the lock, if the exceptions of `order` have been made. -/
def IrqListener.Waits (irqs : List (BitVec 8)) (order : List Turn) : IrqListener → Prop
  | .reading rest => order.filterMap Sum.getRight? ++ rest = irqs
  | .locking irq rest => order.filterMap Sum.getRight? ++ irq :: rest = irqs
  | .handling _ _ => False

theorem IrqListener.waits_of_remaining {irqs : List (BitVec 8)} {order : List Turn}
    {here : IrqListener} (received : order.filterMap Sum.getRight? ++ here.remaining = irqs)
    (outside : ¬ here.UnderLock)
    : here.Waits irqs order := by
  cases here with
  | reading rest => exact received
  | locking irq rest => exact received
  | handling left rest => exact absurd trivial outside

/-- What has happened since the turns of `order` have left the data `before`. With the lock free,
nothing. The thread that holds the lock has done some of its next turn, and the other one waits: gdb
some pieces of the request behind the tokens of `order`, the listener for interrupts some writes of
the exception for the next byte.
-/
def Underway (env : Env) (behind : Nat → List (BitVec 8)) (cut : Cut env) (found : List Token)
    (irqs : List (BitVec 8)) (order : List Turn) (before : ParserData) (c : Config ArmCore Where)
    : Prop :=
  match c.holder with
  | none =>
      IrqListener.Waits irqs order (c.locals .irq)
      ∧ GdbListener.Waits env behind cut found order before (c.locals .gdb)
      ∧ c.shared = before.gdb.arm
  | some .gdb =>
      IrqListener.Waits irqs order (c.locals .irq)
      ∧ ∃ n rest data left yytext locked,
        c.locals .gdb = .handling n rest data left
        ∧ order.filterMap Sum.getLeft? ++ .packet yytext :: rest = found
        ∧ n = (order.filterMap Sum.getLeft?).length
        ∧ (beforeHandler env (behind n) (.packet yytext) before).result
          = .ok (some ((handled yytext (behind n)).getD 1 0, handled yytext (behind n)), locked)
        ∧ (cut.request ((handled yytext (behind n)).getD 1 0) (handled yytext (behind n))).Reaches
            locked.gdb left (data.withArm c.shared).gdb
  | some .irq =>
      GdbListener.Waits env behind cut found order before (c.locals .gdb)
      ∧ ∃ irq rest made left,
        c.locals .irq = .handling left rest
        ∧ order.filterMap Sum.getRight? ++ irq :: rest = irqs
        ∧ cut.exception irq = made ++ left
        ∧ c.shared = made.foldl (fun p write => write p) before.gdb.arm

section Runs

variable {arm : ArmCore} {packet buffer : Nat → BitVec 8} {input irqs : List (BitVec 8)}
  {c : Config ArmCore Where}
  (run
    : ReflTransGen (AnyStep (listeners env behind cut)) (started arm packet buffer input irqs) c)

include run

/-- Under the lock of gdb. -/
theorem underway_gdb {n : Nat} {rest : List Token} {data : ParserData} {left : Handling}
    (inside : c.locals .gdb = .handling n rest data left)
    : ∃ order before,
        (turns env behind 0 order (gdbScannerData arm packet buffer)).result = .ok ((), before)
        ∧ c.holder = some .gdb
        ∧ order.filterMap Sum.getRight? ++ IrqListener.remaining (c.locals .irq) = irqs
        ∧ ∃ yytext locked,
          order.filterMap Sum.getLeft? ++ .packet yytext :: rest = scanned input
          ∧ n = (order.filterMap Sum.getLeft?).length
          ∧ (beforeHandler env (behind n) (.packet yytext) before).result
            = .ok (some ((handled yytext (behind n)).getD 1 0, handled yytext (behind n)), locked)
          ∧ (cut.request ((handled yytext (behind n)).getD 1 0) (handled yytext (behind n))).Reaches
              locked.gdb left (data.withArm c.shared).gdb := by
  have guarded := listeners_guarded env behind cut
  have outside := started_outside arm packet buffer input irqs
  have holds : c.holder = some .gdb := by
    refine ((guarded.explained outside rfl run).1 .gdb).mp ?_
    rw [inside]
    trivial
  obtain ⟨s, place, first, serial, enters, alone⟩ := guarded.undisturbed outside rfl run holds
  obtain ⟨order, before, received, ran, same, waits⟩ :=
    inOrder_of_serial arm packet buffer input irqs serial
  obtain ⟨m, later, waiting, pieces, rfl, rfl⟩ := gdbListener_lock enters
  have self
      : Function.update c.locals .gdb (GdbListener.locking m later waiting pieces) .gdb
        = GdbListener.locking m later waiting pieces :=
    Function.update_self ..
  have serves : ¬ GdbListener.Over
      (Function.update c.locals .gdb (GdbListener.locking m later waiting pieces) .gdb) := by
    rw [self]
    exact id
  obtain ⟨token, index, request, split, position, acted, rfl⟩ :=
    (show GdbListener.Waits env behind cut (scanned input) order before _ from
      self ▸ waits serves)
  obtain ⟨yytext, rfl, rfl, rfl⟩ := beforeHandler_some acted
  rw [inside] at alone
  obtain ⟨rfl, rfl, reaches, -⟩ := reaches_of_solo alone rfl
  have reached := (show before.gdb.arm = s from same) ▸ reaches
  exact ⟨order, before, ran, holds, received, yytext, _, split, position, acted, reached⟩

/-- Under the lock of the listener for interrupts. -/
theorem underway_irq {left : List (ArmCore → ArmCore)} {rest : List (BitVec 8)}
    (inside : c.locals .irq = .handling left rest)
    : ∃ order before,
        (turns env behind 0 order (gdbScannerData arm packet buffer)).result = .ok ((), before)
        ∧ c.holder = some .irq
        ∧ (¬ GdbListener.Over (c.locals .gdb)
          → GdbListener.Waits env behind cut (scanned input) order before (c.locals .gdb))
        ∧ ∃ irq made,
          order.filterMap Sum.getRight? ++ irq :: rest = irqs
          ∧ cut.exception irq = made ++ left
          ∧ c.shared = made.foldl (fun p write => write p) before.gdb.arm := by
  have guarded := listeners_guarded env behind cut
  have outside := started_outside arm packet buffer input irqs
  have holds : c.holder = some .irq := by
    refine ((guarded.explained outside rfl run).1 .irq).mp ?_
    rw [inside]
    trivial
  obtain ⟨s, place, first, serial, enters, alone⟩ := guarded.undisturbed outside rfl run holds
  obtain ⟨order, before, received, ran, same, waits⟩ :=
    inOrder_of_serial arm packet buffer input irqs serial
  obtain ⟨irq, later, rfl, rfl⟩ := irqListener_lock enters
  have self
      : Function.update c.locals .irq (IrqListener.locking irq later) .irq
        = IrqListener.locking irq later :=
    Function.update_self ..
  have remaining : order.filterMap Sum.getRight? ++ irq :: later = irqs :=
    (congrArg (fun here => _ ++ IrqListener.remaining here) self).symm.trans received
  rw [inside] at alone
  obtain ⟨rfl, made, all, last⟩ := excepted_of_solo alone rfl
  rw [← show before.gdb.arm = s from same] at last
  exact ⟨order, before, ran, holds, waits, irq, made, remaining, all, last⟩

end Runs

/-- At every moment of every run, as long as gdb is served, the processor is the one that the whole
requests and interrupts so far have left, with what the thread that holds the lock has done to it
since, and with nothing of the other thread.
-/
theorem listeners_explained (env : Env) (behind : Nat → List (BitVec 8)) (cut : Cut env)
    (arm : ArmCore) (packet buffer : Nat → BitVec 8) (input irqs : List (BitVec 8))
    {c : Config ArmCore Where}
    (run
      : ReflTransGen (AnyStep (listeners env behind cut)) (started arm packet buffer input irqs) c)
    (serves : ¬ GdbListener.Over (c.locals .gdb))
    : ∃ (order : List Turn) (before : ParserData),
        (turns env behind 0 order (gdbScannerData arm packet buffer)).result = .ok ((), before)
        ∧ Underway env behind cut (scanned input) irqs order before c := by
  have guarded := listeners_guarded env behind cut
  have outside := started_outside arm packet buffer input irqs
  have held := (guarded.explained outside rfl run).1
  have irqOutside (other : c.holder ≠ some .irq) : ¬ UnderLock .irq (c.locals .irq) :=
    mt (held .irq).mp other
  cases holder : c.holder with
  | none =>
      obtain ⟨order, before, received, ran, same, waits⟩ :=
        inOrder_of_serial arm packet buffer input irqs (guarded.serializable outside rfl run holder)
      have irqWaits := IrqListener.waits_of_remaining received (irqOutside (holder ▸ nofun))
      refine ⟨order, before, ran, ?_⟩
      rw [Underway, holder]
      exact ⟨irqWaits, waits serves, same.symm⟩
  | some listener =>
      have inside := (held listener).mpr holder
      cases listener with
      | gdb =>
          cases here : c.locals .gdb with
          | handling n rest data left =>
              obtain ⟨order, before, ran, -, received, yytext, locked, found⟩ :=
                underway_gdb run here
              have irqWaits := IrqListener.waits_of_remaining received (irqOutside (holder ▸ nofun))
              refine ⟨order, before, ran, ?_⟩
              rw [Underway, holder]
              exact ⟨irqWaits, n, rest, data, left, yytext, locked, here, found⟩
          | scanning n rest data =>
              rw [here] at inside
              exact inside.elim
          | locking n rest data pieces =>
              rw [here] at inside
              exact inside.elim
          | ended data =>
              rw [here] at serves
              exact absurd trivial serves
          | stopped underLock reason =>
              rw [here] at serves
              exact absurd trivial serves
      | irq =>
          cases here : c.locals .irq with
          | handling left rest =>
              obtain ⟨order, before, ran, -, waits, irq, made, found⟩ := underway_irq run here
              refine ⟨order, before, ran, ?_⟩
              rw [Underway, holder]
              exact ⟨waits serves, irq, rest, made, left, here, found⟩
          | reading rest =>
              rw [here] at inside
              exact inside.elim
          | locking irq rest =>
              rw [here] at inside
              exact inside.elim

-----------------------------------------------------------------------------------------
-- Instructions
-----------------------------------------------------------------------------------------

/-- A returning call of `arm_step`. -/
def StepsTo (host : Host) (p q : ArmCore) : Prop :=
  ∃ result, armStep host p = .returned result q

/-- The processor after some calls of `arm_step`. -/
theorem armSteps_of_stepsTo {host : Host} {p q : ArmCore} (run : ReflTransGen (StepsTo host) p q)
    : ∃ k result, armSteps host k p = .returned result q := by
  induction run with
  | refl => exact ⟨0, 0, rfl⟩
  | tail _ step ih =>
      obtain ⟨k, before, ran⟩ := ih
      obtain ⟨result, stepped⟩ := step
      exact ⟨k + 1, result, by rw [armSteps, ran]; exact stepped⟩

theorem stepArm_stepsTo {gdb t : Session} (ended : (stepArm env gdb).result = .ok ((), t))
    : StepsTo env.host gdb.arm t.arm := by
  rw [stepArm, bind_result (x := get) (a := gdb) (t := gdb) rfl] at ended
  cases ran : armStep env.host gdb.arm with
  | returned result arm =>
      rw [ran] at ended
      cases ended
      exact ⟨result, ran⟩
  | exited status =>
      rw [ran] at ended
      cases ended

/-- Between its pieces `cont` has run some instructions, by induction on those that it may run. -/
theorem reaches_contPieces {fuel : Nat} {instruction : BitVec 32} {left : Handling} {s t : Session}
    (reaches : (contPieces env fuel instruction).Reaches s left t)
    : ReflTransGen (StepsTo env.host) s.arm t.arm := by
  induction fuel generalizing instruction s with
  | zero =>
      rcases reaches.cases_piece with ⟨-, rfl⟩ | ⟨_, _, ended, -⟩
      · exact .refl
      · cases ended
  | succ fuel ih =>
      rcases reaches.cases_piece with ⟨-, rfl⟩ | ⟨word, peeked, looked, others⟩
      · exact .refl
      · cases looked
        split at others
        · rcases others.cases_piece with ⟨-, rfl⟩ | ⟨_, replied, sent, done⟩
          · exact .refl
          · rw [done.done, sendStopReason_result sent]
            exact .refl
        · rcases others.cases_piece with ⟨-, rfl⟩ | ⟨_, middle, stepped, more⟩
          · exact .refl
          · exact .head (stepArm_stepsTo stepped) (ih more)

/-- The first byte of a payload decides on the handler. -/
theorem handled_index {yytext : List (BitVec 8)} (isFrame : IsFrame yytext) {command : BitVec 8}
    (starts : yytext[1]? = some command) (named : command ≠ ascii '#') (ahead : List (BitVec 8))
    : (handled yytext ahead).getD 1 0 = command := by
  obtain ⟨payload, digits, rfl, plain, two, hex⟩ := isFrame
  cases payload with
  | nil => exact absurd (Option.some.inj starts).symm named
  | cons first payload =>
      obtain rfl : first = command := Option.some.inj starts
      have behindFirst
          : 1 ≠ max 1 ((ascii '$' :: first :: payload ++ ascii '#' :: digits).length - 3) := by
        simp only [List.length_append, List.length_cons, two]
        omega
      rw [handled, terminated, List.getD_eq_getElem?_getD, List.getElem?_set_ne behindFirst.symm]
      rfl

/-- No interrupt takes effect while a request `c` runs: however the threads interleave, at every
moment between two instructions the processor is what some instructions make of the one that the
turns so far have left.
-/
theorem cont_undisturbed (env : Env) (behind : Nat → List (BitVec 8)) (arm : ArmCore)
    (packet buffer : Nat → BitVec 8) (input irqs : List (BitVec 8)) {c : Config ArmCore Where}
    (run
      : ReflTransGen (AnyStep (listeners env behind (perAccess env)))
          (started arm packet buffer input irqs) c)
    {n : Nat} {rest : List Token} {data : ParserData} {left : Handling}
    (inside : c.locals .gdb = .handling n rest data left) {yytext : List (BitVec 8)}
    (current : (scanned input)[n]? = some (.packet yytext)) (isCont : yytext[1]? = some (ascii 'c'))
    : ∃ (order : List Turn) (before : ParserData) (k : Nat) (result : Int),
        order.filterMap Sum.getLeft? ++ .packet yytext :: rest = scanned input
        ∧ order.filterMap Sum.getRight? ++ IrqListener.remaining (c.locals .irq) = irqs
        ∧ (turns env behind 0 order (gdbScannerData arm packet buffer)).result = .ok ((), before)
        ∧ armSteps env.host k before.gdb.arm = .returned result c.shared := by
  obtain ⟨order, before, ran, -, received, found, locked, split, position, acted, reaches⟩ :=
    underway_gdb run inside
  have same : found = yytext := by
    rw [← split, position, List.getElem?_append_right (Nat.le_refl _), Nat.sub_self] at current
    exact Token.packet.inj (Option.some.inj current)
  subst same
  have isFrame : IsFrame found := isFrame_of_scanned (List.mem_of_getElem? current)
  have pieces : (perAccess env).request ((handled found (behind n)).getD 1 0)
      (handled found (behind n)) = contPieces env env.fuel env.unset.instruction := by
    change requestPieces env _ _ = _
    rw [requestPieces, if_pos (handled_index isFrame isCont (by decide) _)]
  rw [pieces] at reaches
  have steps := reaches_contPieces reaches
  rw [beforeHandler_arm acted] at steps
  obtain ⟨k, result, stepped⟩ := armSteps_of_stepsTo steps
  exact ⟨order, before, k, result, split, received, ran, stepped⟩

-----------------------------------------------------------------------------------------
-- A server that continues
-----------------------------------------------------------------------------------------

theorem scanned_cont : scanned (text "$c#63") = [.packet (text "$c#63")] :=
  scanned_frame ⟨text "c", text "63", rfl, by decide, rfl, by decide⟩ []

set_option maxRecDepth 4000 in
theorem beforeHandler_cont
    : (beforeHandler (.following 0) [] (.packet (text "$c#63")) oneWordScanner).result
      = .ok (some (ascii 'c', handled (text "$c#63") []), acknowledging) :=
  rfl

theorem pieceOnArm_peek (env : Env) (instruction : BitVec 32) (data : ParserData)
    (goOn : BitVec 32 → ParserData → GdbListener) (arm : ArmCore)
    : ∃ after,
        pieceOnArm (peek env instruction) data goOn arm
        = (arm, goOn (armReadWord env.host arm (armReadRegister arm 15 - 4) instruction).2 after) :=
  ⟨_, rfl⟩

theorem pieceOnArm_stepArm (env : Env) {arm next : ArmCore} {result : Int}
    (stepped : armStep env.host arm = .returned result next) (data : ParserData)
    (goOn : Unit → ParserData → GdbListener)
    : ∃ after, pieceOnArm (stepArm env) data goOn arm = (next, goOn () after) := by
  have ran : (stepArm env (data.withArm arm).gdb).result
      = .ok ((), { (data.withArm arm).gdb with arm := next, targetException := result }) := by
    have here : armStep env.host (data.withArm arm).gdb.arm = .returned result next := stepped
    rw [stepArm, bind_result (x := get) (t := (data.withArm arm).gdb) rfl, here]
    rfl
  simp only [pieceOnArm, calling, ran]
  exact ⟨_, rfl⟩

set_option maxRecDepth 4000 in
theorem word_ordinary
    : ¬ (armReadWord (Env.following 0).host (oneWord 4 0) (armReadRegister (oneWord 4 0) 15 - 4)
          0).2 &&& 0xFFF000F0
      = 0xE7F000F0 := by
  decide

set_option maxRecDepth 4000 in
theorem pc_moves
    : (armStep (.plain .little) (oneWord 4 0)).register 15 ≠ readRegister (oneWord 4 0).reg 15 := by
  decide

/-- The server has executed an instruction of a request `c`, and a reset waits for the lock. -/
theorem run_cont
    : ∃ (result : Int) (arm : ArmCore) (data : ParserData) (left : Handling),
        armStep (.plain .little) (oneWord 4 0) = .returned result arm
        ∧ ReflTransGen (AnyStep (listeners (.following 0) (fun _ => []) (perAccess (.following 0))))
            (started (oneWord 4 0) (fun _ => 0) (fun _ => 0) (text "$c#63") [1])
            { shared := arm
              holder := some .gdb
              locals := places (.handling 0 [] data left) (.locking 1 []) } := by
  let word :=
    (armReadWord (Env.following 0).host (oneWord 4 0) (armReadRegister (oneWord 4 0) 15 - 4) 0).2
  let left : Handling := contPieces (.following 0) 1 word
  have begins
      : gdbListener (.following 0) (fun _ => []) (perAccess (.following 0))
          (.scanning 0 [.packet (text "$c#63")] oneWordScanner)
        = .internal (.locking 0 [] acknowledging (contPieces (.following 0) 2 0)) := by
    rw [gdbListener, beforeHandler_cont]
    rfl
  obtain ⟨result, arm, stepped⟩
      : ∃ result arm, armStep (.plain .little) (oneWord 4 0) = .returned result arm :=
    ⟨_, _, armStep_of_returned (fetches_oneWord _ (by decide) 0)
      (decoderOutcome_data _ _ (.inl ⟨by decide, by decide⟩))⟩
  obtain ⟨looked, looks⟩ := pieceOnArm_peek (.following 0) 0 acknowledging
    (fun word after => .handling 0 [] after
      (if word &&& 0xFFF000F0 = 0xE7F000F0 then .single sendStopReason
        else .piece (stepArm (.following 0)) fun _ => contPieces (.following 0) 1 word))
    (oneWord 4 0)
  rw [if_neg word_ordinary] at looks
  obtain ⟨data, steps⟩ := pieceOnArm_stepArm (.following 0) stepped looked
    fun _ after => .handling 0 [] after left
  refine ⟨result, arm, data, left, stepped, ?_⟩
  rw [started_eq, scanned_cont]
  refine .head (irq_steps (.internal rfl)) ?_
  refine .head (gdb_steps (.internal begins)) ?_
  refine .head (gdb_steps (.lock rfl rfl)) ?_
  refine .head (gdb_steps (.of_access rfl looks)) ?_
  exact .single (gdb_steps (.of_access rfl steps))

/-- The instruction is all that has happened to the processor. -/
theorem oneInstruction_explained
    : ∃ (result : Int) (arm : ArmCore) (data : ParserData) (left : Handling) (order : List Turn)
        (before : ParserData),
        armStep (.plain .little) (oneWord 4 0) = .returned result arm
        ∧ (turns (.following 0) (fun _ => []) 0 order oneWordScanner).result = .ok ((), before)
        ∧ Underway (.following 0) (fun _ => []) (perAccess (.following 0))
            (scanned (text "$c#63")) [1] order before
            { shared := arm
              holder := some .gdb
              locals := places (.handling 0 [] data left) (.locking 1 []) } := by
  obtain ⟨result, arm, data, left, stepped, run⟩ := run_cont
  obtain ⟨order, before, ran, underway⟩ :=
    listeners_explained (.following 0) (fun _ => []) (perAccess (.following 0)) (oneWord 4 0)
      (fun _ => 0) (fun _ => 0) (text "$c#63") [1] run id
  exact ⟨result, arm, data, left, order, before, stepped, ran, underway⟩

/-- In the run the processor has left its first state, and the reset has not been made. -/
theorem oneInstruction_undisturbed
    : ∃ (arm : ArmCore) (order : List Turn) (before : ParserData) (k : Nat) (result : Int),
        (armStep (.plain .little) (oneWord 4 0)).register 15 = readRegister arm.reg 15
        ∧ readRegister arm.reg 15 ≠ readRegister (oneWord 4 0).reg 15
        ∧ order.filterMap Sum.getLeft? ++ [.packet (text "$c#63")] = scanned (text "$c#63")
        ∧ order.filterMap Sum.getRight? ++ [1] = [1]
        ∧ (turns (.following 0) (fun _ => []) 0 order oneWordScanner).result = .ok ((), before)
        ∧ armSteps (.plain .little) k before.gdb.arm = .returned result arm := by
  obtain ⟨_, arm, data, left, stepped, run⟩ := run_cont
  have register
      : (armStep (.plain .little) (oneWord 4 0)).register 15 = readRegister arm.reg 15 := by
    rw [stepped]
    rfl
  obtain ⟨order, before, k, result, disturbed⟩ :=
    cont_undisturbed (.following 0) (fun _ => []) (oneWord 4 0) (fun _ => 0) (fun _ => 0)
      (text "$c#63") [1] run rfl (by rw [scanned_cont]; rfl) rfl
  exact ⟨arm, order, before, k, result, register, register ▸ pc_moves, disturbed⟩

end Armator.Gdb
