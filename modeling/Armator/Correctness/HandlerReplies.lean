import Armator.Correctness.Framing
import Armator.Correctness.OpenConnection

/-! Every request that is answered gets one frame, whose text has neither a NUL nor a mark of
packets.
-/

namespace Armator.Gdb

open CText Traced

/-- A text that fits between `$` and `#` and into a string. -/
def IsReply (s : List (BitVec 8)) : Prop :=
  NoNul s ∧ IsPayload s

instance (s : List (BitVec 8)) : Decidable (IsReply s) :=
  inferInstanceAs (Decidable (_ ∧ _))

theorem isReply_iff {s : List (BitVec 8)}
    : IsReply s ↔ ∀ c ∈ s, c ≠ 0 ∧ c ≠ ascii '$' ∧ c ≠ ascii '#' := by
  constructor
  · rintro ⟨noNul, payload⟩ c member
    exact ⟨noNul c member, payload c member⟩
  · intro all
    exact ⟨fun c member => (all c member).1, fun c member => (all c member).2⟩

theorem IsReply.append {first second : List (BitVec 8)} (left : IsReply first)
    (right : IsReply second)
    : IsReply (first ++ second) := by
  rw [isReply_iff] at left right ⊢
  intro c member
  rcases List.mem_append.mp member with inFirst | inSecond
  · exact left c inFirst
  · exact right c inSecond

theorem isReply_flatMap {Item : Type} {items : List Item} {field : Item → List (BitVec 8)}
    (all : ∀ item, IsReply (field item))
    : IsReply (items.flatMap field) := by
  rw [isReply_iff]
  intro c member
  obtain ⟨item, -, inField⟩ := List.mem_flatMap.mp member
  exact isReply_iff.mp (all item) c inField

theorem isReply_of_hexDigits {s : List (BitVec 8)} (digits : ∀ c ∈ s, (hexDigit c).isSome)
    : IsReply s := by
  rw [isReply_iff]
  intro c member
  have digit := digits c member
  refine ⟨(hexDigit_plain c digit).2.2.2.2.2, ?_, ?_⟩
  · rintro rfl
    exact absurd digit (by decide)
  · rintro rfl
    exact absurd digit (by decide)

theorem isReply_wordText (env : Env) (value : BitVec 32) : IsReply (wordText env value) :=
  isReply_flatMap fun _ => isReply_of_hexDigits (hexDigit_printHex2 _)

theorem isReply_hexText (bytes : List (BitVec 8)) : IsReply (hexText bytes) :=
  isReply_flatMap fun b => isReply_of_hexDigits (hexDigit_printHex2 b)

theorem isReply_registersText (env : Env) (p : ArmCore) : IsReply (registersText env p) := by
  have blank : IsReply (text "xxxxxxxx") := by decide
  have low : IsReply ((List.range 15).flatMap fun i =>
      wordText env (armReadRegister p (BitVec.ofNat 8 i))) :=
    isReply_flatMap fun _ => isReply_wordText env _
  have floats : IsReply ((List.range 24).flatMap fun _ => text "xxxxxxxx") :=
    isReply_flatMap fun _ => blank
  exact (((low.append (isReply_wordText env _)).append floats).append blank).append
    (isReply_wordText env _)

theorem isReply_stopReason (gdb : GdbProtocolData) : IsReply (text (gdbSendStopReason gdb)) := by
  unfold gdbSendStopReason
  split
  · decide
  · split <;> decide

theorem isReply_queryReply (s : List (BitVec 8)) : IsReply (queryReply s) := by
  unfold queryReply
  repeat' split
  all_goals decide

theorem isReply_threadReply (value : BitVec 32) : IsReply (threadReply value) := by
  unfold threadReply
  split <;> decide

/-- The session that has replied for the target `after`. -/
def Session.answering (gdb : Session) (after : GdbProtocolData) (reply : List (BitVec 8))
    : Session :=
  Session.replied { gdb with toGdbProtocolData := after } reply

/-- Some reply was sent, as one frame, and nothing else but the target has changed. -/
def Replies (gdb t : Session) : Prop :=
  ∃ after reply, IsReply reply ∧ t = gdb.answering after reply

section Handlers

variable {env : Env} {gdb t : Session} {packet : List (BitVec 8)} {data : Nat}

theorem replies_withArm {reply : List (BitVec 8)} (isReply : IsReply reply) {arm : ArmCore}
    (same : t = Session.replied { gdb with arm } reply)
    : Replies gdb t :=
  ⟨{ gdb.toGdbProtocolData with arm }, reply, isReply, same⟩

theorem replies_replied {reply : List (BitVec 8)} (isReply : IsReply reply)
    (same : t = gdb.replied reply)
    : Replies gdb t :=
  ⟨gdb.toGdbProtocolData, reply, isReply, same⟩

theorem replies_gdbSendData {reply : List (BitVec 8)} (isReply : IsReply reply)
    (short : reply.length < 100) (ended : (gdbSendData reply gdb).result = .ok ((), t))
    : Replies gdb t := by
  have met := (@Consists.gdbSendData True reply).keepsOpen.meets ended
  rw [meets_gdbSendData_short keepsOpen_write reply ⟨isReply.1, short⟩] at met
  exact replies_replied isReply met.2.symm

theorem sendStopReason_result (ended : (sendStopReason gdb).result = .ok ((), t))
    : t = gdb.replied (text (gdbSendStopReason gdb.toGdbProtocolData)) := by
  have met := Consists.sendStopReason.keepsOpen.meets ended
  rw [meets_sendStopReason keepsOpen_write] at met
  exact met.2.symm

theorem replies_sendStopReason (ended : (sendStopReason gdb).result = .ok ((), t))
    : Replies gdb t :=
  replies_replied (isReply_stopReason _) (sendStopReason_result ended)

/-- Instructions change nothing but the target. -/
theorem stepArm_frame {middle : Session} (ended : (stepArm env gdb).result = .ok ((), middle))
    : ∃ after, middle = { gdb with toGdbProtocolData := after } := by
  have met : Meets (fun _ => True) (fun _ => True)
      (fun _ s => ∃ after, s = { gdb with toGdbProtocolData := after }) (stepArm env) gdb := by
    rw [meets_stepArm_iff]
    cases armStep env.host gdb.arm with
    | returned result arm => exact ⟨{ arm, targetException := result }, rfl⟩
    | exited status => trivial
  have post := met.2
  rwa [ended] at post

theorem contLoop_frame {fuel : Nat} {instruction : BitVec 32} {middle : Session}
    (ended : (contLoop env fuel instruction gdb).result = .ok ((), middle))
    : ∃ after, middle = { gdb with toGdbProtocolData := after } := by
  have step (s : Session) (same : ∃ after, s = { gdb with toGdbProtocolData := after })
      : Meets (fun _ => True) (fun _ => True)
          (fun _ u => ∃ after, u = { gdb with toGdbProtocolData := after }) (stepArm env) s := by
    obtain ⟨before, rfl⟩ := same
    refine ⟨fun _ _ => trivial, ?_⟩
    split
    · next a u stepped =>
        obtain ⟨after, rfl⟩ := stepArm_frame stepped
        exact ⟨after, rfl⟩
    · trivial
  have met : Meets (fun _ => True) (fun _ => True)
      (fun _ s => ∃ after, s = { gdb with toGdbProtocolData := after })
      (contLoop env fuel instruction) gdb :=
    meets_contLoop_of_step env step fuel instruction ⟨gdb.toGdbProtocolData, rfl⟩
  have post := met.2
  rwa [ended] at post

/-- The reply behind some instructions. -/
theorem replies_of_running {call : Act Unit}
    (frame
      : ∀ {middle}, (call gdb).result = .ok ((), middle)
        → ∃ after, middle = { gdb with toGdbProtocolData := after })
    (ended : ((call >>= fun _ => sendStopReason) gdb).result = .ok ((), t))
    : Replies gdb t := by
  obtain ⟨⟨⟩, middle, ran, sent⟩ := of_bind_result ended
  obtain ⟨before, rfl⟩ := frame ran
  obtain ⟨after, reply, isReply, rfl⟩ := replies_sendStopReason sent
  exact ⟨after, reply, isReply, rfl⟩

/-- Every handler but the one of `k` that returns has sent one reply. Witness: one case for each
entry of the table, with what the handler meets.
-/
theorem replies_of_handler {index : BitVec 8} {handle : List (BitVec 8) → Nat → Act Unit}
    (found : handler env index = some handle) (notKill : index ≠ ascii 'k')
    (ended : (handle packet data gdb).result = .ok ((), t))
    : Replies gdb t := by
  have met := (Consists.handler found notKill packet data).keepsOpen.meets ended
  cases entry_of_handler found with
  | cont => exact replies_of_running contLoop_frame ended
  | killRequest => exact absurd rfl notKill
  | query =>
      rw [meets_query keepsOpen_write] at met
      exact replies_replied (isReply_queryReply _) met.2.2.symm
  | readGeneralRegisters =>
      rw [meets_readGeneralRegisters keepsOpen_write] at met
      exact replies_replied (isReply_registersText env _) met.2.symm
  | readMemory =>
      rw [meets_readMemory keepsOpen_write] at met
      exact replies_replied (isReply_hexText _) met.2.2.2.2.2.symm
  | readRegister =>
      rw [meets_readRegisterRequest keepsOpen_write] at met
      obtain ⟨-, -, met⟩ := met
      split at met
      · exact replies_replied (isReply_wordText env _) met.2.symm
      · exact met.elim
  | reason => exact replies_sendStopReason ended
  | setThread =>
      rw [meets_setThread keepsOpen_write] at met
      obtain ⟨-, -, met⟩ := met
      split at met
      · exact replies_replied (isReply_threadReply _) met.2.2.symm
      · exact replies_replied (by decide) met.2.symm
  | step => exact replies_of_running stepArm_frame ended
  | writeGeneralRegisters =>
      rw [meets_writeGeneralRegisters keepsOpen_write] at met
      exact replies_withArm (by decide) met.2.2.symm
  | writeMemoryBinary =>
      rw [meets_writeMemoryBinary keepsOpen_write] at met
      obtain ⟨-, -, -, met⟩ := met
      split at met
      · exact replies_replied (by decide) met.2.symm
      split at met
      · exact replies_replied (by decide) met.2.symm
      split at met
      · exact met.elim
      · refine replies_withArm ?_ met.2.2.symm
        split <;> decide
  | writeRegister =>
      rw [meets_writeRegisterRequest keepsOpen_write] at met
      obtain ⟨-, met⟩ := met
      split at met
      · exact met.elim
      · obtain ⟨-, -, met⟩ := met
        split at met
        · exact replies_withArm (by decide) met.2.symm
        · exact met.elim

end Handlers

end Armator.Gdb
