import Armator.Correctness.RequestForms

/-! Well-formed requests are answered with one reply, which is then the one in the buffer. -/

namespace Armator.Gdb

open CText Traced ByteStuffing

/-- The bytes that `gdb_transmit_packet` sends. -/
def Session.lastFrame (gdb : Session) : List (BitVec 8) :=
  (List.range gdb.len).map gdb.packet

/-- One reply was sent since `gdb`, and is in the buffer. -/
def RepliedOnce (gdb t : Session) : Prop :=
  ∃ reply, t.sent = gdb.sent ++ frame reply ∧ t.lastFrame = frame reply

/-- A write is inside the packet, and the connection stays open. -/
def KeepsOpen : Event → Prop
  | .write index => index < MAX_PACKET_SIZE
  | .shutdown => False
  | _ => True

/-- The arguments of the request start with two numbers. -/
def HasNumbers (payload : List (BitVec 8)) (address size : BitVec 32) : Prop :=
  scanHexPair (arguments payload) = (some (address.toNat : Int), some (size.toNat : Int))

/-- The conditions of a well-formed request, command by command: `c` terminates and `s` does not end
the process; a reply to `m` fits; registers have numbers below 16, as the handler reads them; the
arguments are complete, and `X` has content of the declared length.
-/
structure WellFormed (env : Env) (gdb : Session) (payload : List (BitVec 8)) : Prop where
  cont : payload.head? = some (ascii 'c')
    → ∃ t, (contLoop env env.fuel env.unset.instruction gdb).result = .ok ((), t)
  step : payload.head? = some (ascii 's')
    → ∃ result arm, armStep env.host gdb.arm = .returned result arm
  readMemory : payload.head? = some (ascii 'm')
    → ∃ address size,
        HasNumbers payload address size
        ∧ 2 * readable gdb.arm.mem size.toNat address + 4 < MAX_PACKET_SIZE
  readRegister : payload.head? = some (ascii 'p')
    → (atoiValue env (scanInt (arguments payload))).toNat < 16
  writeRegister : payload.head? = some (ascii 'P')
    → ∃ i, ∃ n : Nat,
        indexOf (arguments payload) (ascii '=') = some i
        ∧ (scanHex (arguments payload)).map Prod.fst = some (n : Int)
        ∧ n < 16
        ∧ i + 9 ≤ (arguments payload).length
  writeGeneralRegisters : payload.head? = some (ascii 'G') → 336 ≤ (arguments payload).length
  writeMemory : payload.head? = some (ascii 'X')
    → ∃ address size colon data,
        HasNumbers payload address size
        ∧ indexOf (arguments payload) (ascii ':') = some colon
        ∧ decode 0x7d 0x20 size.toNat (payload.drop (colon + 2)) = some (data, [])

/-- The last frame is that of the reply. -/
theorem lastFrame_replied (gdb : Session) (reply : List (BitVec 8))
    : (gdb.replied reply).lastFrame = frame reply := by
  have length : (gdb.replied reply).len = (frame reply).length := (length_frame reply).symm
  rw [Session.lastFrame, length]
  exact map_range_putBytes gdb.packet (frame reply) [0]

theorem repliedOnce_replied {gdb s : Session} (sent : s.sent = gdb.sent) (reply : List (BitVec 8))
    : RepliedOnce gdb (s.replied reply) := by
  refine ⟨reply, ?_, lastFrame_replied s reply⟩
  rw [← sent]
  rfl

theorem repliedOnce_self (gdb : Session) (reply : List (BitVec 8))
    : RepliedOnce gdb (gdb.replied reply) :=
  repliedOnce_replied rfl reply

theorem repliedOnce_withArm (gdb : Session) (arm : ArmCore) (reply : List (BitVec 8))
    : RepliedOnce gdb (Session.replied { gdb with arm } reply) :=
  repliedOnce_replied (s := { gdb with arm }) rfl reply

/-- Instructions send nothing. -/
theorem meets_stepArm_sent {allowed : Event → Prop} (env : Env) (gdb : Session)
    : Meets allowed (fun _ => True) (fun _ t => t.sent = gdb.sent) (stepArm env) gdb := by
  rw [meets_stepArm_iff]
  cases armStep env.host gdb.arm with
  | returned result arm => rfl
  | exited status => trivial

theorem meets_contLoop_sent {allowed : Event → Prop} (env : Env) (fuel : Nat)
    (instruction : BitVec 32) (gdb : Session)
    : Meets allowed (fun _ => True) (fun _ t => t.sent = gdb.sent)
        (contLoop env fuel instruction) gdb := by
  have step (s : Session) (sent : s.sent = gdb.sent)
      : Meets allowed (fun _ => True) (fun _ t => t.sent = gdb.sent) (stepArm env) s :=
    (meets_stepArm_sent env s).mono fun _ t same => same.trans sent
  exact meets_contLoop_of_step env step fuel instruction rfl

/-- A register that `p` names in hexadecimal has a number below 16 for its handler. -/
theorem readRegister_of_isRegister (env : Env) {s : List (BitVec 8)} (register : IsRegister s)
    : (atoiValue env (scanInt s)).toNat < 16 := by
  rcases scanInt_of_isRegister register with none | ⟨n, low, read⟩
  · rw [none, atoiValue]
    decide
  · rw [read]
    exact atoiValue_lt env low

section Handlers

variable {env : Env} {gdb : Session} {args : List (BitVec 8)} (digits behind : List (BitVec 8))

theorem keepsOpen_write (i : Nat) : KeepsOpen (.write i) ↔ i < MAX_PACKET_SIZE :=
  Iff.rfl

/-- What a handler of a well-formed request has to meet. -/
def AnswersOnce (gdb : Session) (call : Act Unit) : Prop :=
  Meets KeepsOpen (fun _ => False) (fun _ t => RepliedOnce gdb t) call gdb

theorem answersOnce_cont
    (ends : ∃ t, (contLoop env env.fuel env.unset.instruction gdb).result = .ok ((), t))
    : AnswersOnce gdb (cont env) := by
  rw [AnswersOnce, cont, meets_bind]
  obtain ⟨t, result⟩ := ends
  refine ((meets_contLoop_sent env _ _ gdb).of_ends ⟨(), t, result⟩).mono fun _ u sent => ?_
  exact (meets_sendStopReason keepsOpen_write).mpr (repliedOnce_replied sent _)

theorem answersOnce_stepRequest
    (returns : ∃ result arm, armStep env.host gdb.arm = .returned result arm)
    : AnswersOnce gdb (stepRequest env) := by
  obtain ⟨result, arm, returned⟩ := returns
  rw [AnswersOnce, stepRequest, meets_bind, meets_stepArm_iff, returned]
  exact (meets_sendStopReason keepsOpen_write).mpr (repliedOnce_replied rfl _)

theorem answersOnce_readMemory {address size : BitVec 32}
    (numbers : HasNumbers (ascii 'm' :: args) address size)
    (fits : 2 * readable gdb.arm.mem size.toNat address + 4 < MAX_PACKET_SIZE)
    : AnswersOnce gdb (readMemory env (heldRequest (ascii 'm' :: args) digits behind) 2) := by
  refine (meets_readMemory keepsOpen_write env _ 2).mpr ?_
  rw [stringAt_arguments, numbers]
  simp only [scannedValue_toNat]
  exact ⟨trivial, fun _ => trivial, fun _ _ => trivial, fits, repliedOnce_self gdb _⟩

theorem answersOnce_readRegisterRequest
    (low : (atoiValue env (scanInt (arguments (ascii 'p' :: args)))).toNat < 16)
    : AnswersOnce gdb (readRegisterRequest env (heldRequest (ascii 'p' :: args) digits behind) 2) := by
  refine (meets_readRegisterRequest keepsOpen_write env _ 2).mpr ?_
  rw [stringAt_arguments, if_pos low]
  exact ⟨trivial, fun _ => trivial, repliedOnce_self gdb _⟩

theorem answersOnce_setThread (request : List (BitVec 8))
    : AnswersOnce gdb (setThread env request 2) := by
  refine (meets_setThread keepsOpen_write env request 2).mpr ⟨trivial, trivial, ?_⟩
  split
  · exact ⟨fun _ => trivial, repliedOnce_self gdb _⟩
  · exact repliedOnce_self gdb _

theorem answersOnce_writeRegisterRequest {i n : Nat}
    (equals : indexOf (arguments (ascii 'P' :: args)) (ascii '=') = some i)
    (number : (scanHex (arguments (ascii 'P' :: args))).map Prod.fst = some (n : Int))
    (low : n < 16)
    : AnswersOnce gdb (writeRegisterRequest env (heldRequest (ascii 'P' :: args) digits behind) 2) := by
  refine (meets_writeRegisterRequest keepsOpen_write env _ 2).mpr ?_
  have range : 0 ≤ (n : Int) ∧ (n : Int) < 2 ^ 32 := by omega
  have value : (scannedValue env env.unset.reg (some (n : Int))).toNat < 16 := by
    rw [scannedValue, if_pos range, BitVec.toNat_ofInt]
    omega
  rw [stringAt_arguments, equals]
  simp only [number, value, if_true]
  exact ⟨trivial, fun _ _ => ⟨trivial, fun _ => trivial⟩, fun _ => trivial,
    repliedOnce_withArm gdb _ _⟩

theorem answersOnce_writeMemoryBinary {address size : BitVec 32} {colon : Nat}
    (numbers : HasNumbers (ascii 'X' :: args) address size)
    (found : indexOf (arguments (ascii 'X' :: args)) (ascii ':') = some colon)
    : AnswersOnce gdb (writeMemoryBinary env (heldRequest (ascii 'X' :: args) digits behind) 2) := by
  refine (meets_writeMemoryBinary keepsOpen_write env _ 2).mpr ?_
  rw [stringAt_arguments, numbers, found]
  simp only [scannedValue_toNat]
  refine ⟨trivial, fun _ => trivial, fun _ => trivial, ?_⟩
  split
  · exact repliedOnce_self gdb _
  split
  · exact repliedOnce_self gdb _
  · exact ⟨readsContent_of_readByte (fun _ => trivial) _ _ _ _ _, repliedOnce_withArm gdb _ _⟩

end Handlers

/-- A well-formed request other than `k` is answered once. Witness: one case for each command. -/
theorem answersOnce_dispatch {env : Env} {gdb : Session} {payload : List (BitVec 8)}
    (wellFormed : WellFormed env gdb payload) (notKill : payload.head? ≠ some (ascii 'k'))
    (digits behind : List (BitVec 8))
    : AnswersOnce gdb (dispatch env (heldRequest payload digits behind)) := by
  have empty : AnswersOnce gdb (gdbSendData []) :=
    (meets_gdbSendData_short keepsOpen_write [] (by decide)).mpr (repliedOnce_self gdb [])
  cases payload with
  | nil =>
      have unknown : handler env ((heldRequest [] digits behind).getD 1 0) = none := rfl
      rw [dispatch, unknown]
      exact empty
  | cons command args =>
      have index : (heldRequest (command :: args) digits behind).getD 1 0 = command :=
        getD_heldRequest (command :: args) digits behind 0 (Nat.succ_pos _)
      rw [dispatch, index]
      cases found : handler env command with
      | none => exact empty
      | some handle =>
          dsimp only
          cases entry_of_handler found with
          | cont => exact answersOnce_cont (wellFormed.cont rfl)
          | killRequest => exact absurd rfl notKill
          | query => exact (meets_query keepsOpen_write _ 2).mpr ⟨trivial, repliedOnce_self gdb _⟩
          | readGeneralRegisters =>
              exact (meets_readGeneralRegisters keepsOpen_write env).mpr (repliedOnce_self gdb _)
          | readMemory =>
              obtain ⟨address, size, numbers, fits⟩ := wellFormed.readMemory rfl
              exact answersOnce_readMemory digits behind numbers fits
          | readRegister =>
              exact answersOnce_readRegisterRequest digits behind (wellFormed.readRegister rfl)
          | reason => exact (meets_sendStopReason keepsOpen_write).mpr (repliedOnce_self gdb _)
          | setThread => exact answersOnce_setThread _
          | step => exact answersOnce_stepRequest (wellFormed.step rfl)
          | writeGeneralRegisters =>
              exact (meets_writeGeneralRegisters keepsOpen_write env _ 2).mpr
                ⟨fun _ _ _ _ => ⟨trivial, fun _ => trivial⟩, repliedOnce_withArm gdb _ _⟩
          | writeMemoryBinary =>
              obtain ⟨address, size, colon, data, numbers, place, -⟩ := wellFormed.writeMemory rfl
              exact answersOnce_writeMemoryBinary digits behind numbers place
          | writeRegister =>
              obtain ⟨i, n, equals, number, low, -⟩ := wellFormed.writeRegister rfl
              exact answersOnce_writeRegisterRequest digits behind equals number low

end Armator.Gdb
