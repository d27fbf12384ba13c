import Armator.Correctness.Handlers

/-! An accepted packet goes to the handler of its first byte. -/

namespace Armator.Gdb

open CText Traced

/-- The scanner's buffer from the text of a packet on: the NUL behind the text is the scanner's. -/
def requestBuffer (payload digits behind : List (BitVec 8)) : List (BitVec 8) :=
  ascii '$' :: payload ++ ascii '#' :: digits ++ 0 :: behind

/-- The buffer that a handler gets: a NUL is in the place of the `#`. -/
def heldRequest (payload digits behind : List (BitVec 8)) : List (BitVec 8) :=
  ascii '$' :: payload ++ 0 :: digits ++ 0 :: behind

/-- The two digits are a valid checksum. -/
def ChecksumDigits (payload digits : List (BitVec 8)) : Prop :=
  IsHex digits ∧ digits.length = 2 ∧ hexValue digits = (checksum payload).toNat

instance (payload digits : List (BitVec 8)) : Decidable (ChecksumDigits payload digits) :=
  inferInstanceAs (Decidable (_ ∧ _))

/-- The index of the NUL that ends a held request. -/
def terminator (payload : List (BitVec 8)) : Nat :=
  payload.length + 1

/-- The answer of `gdb_packet_analysis` to an accepted packet. -/
def dispatch (env : Env) (packet : List (BitVec 8)) : Act Unit :=
  match handler env (packet.getD 1 0) with
  | some handle => handle packet 2
  | none => gdbSendData []

/-- The entries of the table of handlers. -/
inductive Entry (env : Env) : BitVec 8 → (List (BitVec 8) → Nat → Act Unit) → Prop
  | cont : Entry env (ascii 'c') fun _ _ => cont env
  | killRequest : Entry env (ascii 'k') fun _ _ => killRequest
  | query : Entry env (ascii 'q') query
  | readGeneralRegisters : Entry env (ascii 'g') fun _ _ => readGeneralRegisters env
  | readMemory : Entry env (ascii 'm') (readMemory env)
  | readRegister : Entry env (ascii 'p') (readRegisterRequest env)
  | reason : Entry env (ascii '?') fun _ _ => reason
  | setThread : Entry env (ascii 'H') (setThread env)
  | step : Entry env (ascii 's') fun _ _ => stepRequest env
  | writeGeneralRegisters : Entry env (ascii 'G') (writeGeneralRegisters env)
  | writeMemoryBinary : Entry env (ascii 'X') (writeMemoryBinary env)
  | writeRegister : Entry env (ascii 'P') (writeRegisterRequest env)

/-- A handler that is found is one of the entries. -/
theorem entry_of_handler {env : Env} {index : BitVec 8}
    {handle : List (BitVec 8) → Nat → Act Unit} (found : handler env index = some handle)
    : Entry env index handle := by
  rw [handler] at found
  rcases ite_eq_iff.mp found with ⟨rfl, same⟩ | ⟨-, found⟩
  · exact Option.some.inj same ▸ .cont
  rcases ite_eq_iff.mp found with ⟨rfl, same⟩ | ⟨-, found⟩
  · exact Option.some.inj same ▸ .killRequest
  rcases ite_eq_iff.mp found with ⟨rfl, same⟩ | ⟨-, found⟩
  · exact Option.some.inj same ▸ .query
  rcases ite_eq_iff.mp found with ⟨rfl, same⟩ | ⟨-, found⟩
  · exact Option.some.inj same ▸ .readGeneralRegisters
  rcases ite_eq_iff.mp found with ⟨rfl, same⟩ | ⟨-, found⟩
  · exact Option.some.inj same ▸ .readMemory
  rcases ite_eq_iff.mp found with ⟨rfl, same⟩ | ⟨-, found⟩
  · exact Option.some.inj same ▸ .readRegister
  rcases ite_eq_iff.mp found with ⟨rfl, same⟩ | ⟨-, found⟩
  · exact Option.some.inj same ▸ .reason
  rcases ite_eq_iff.mp found with ⟨rfl, same⟩ | ⟨-, found⟩
  · exact Option.some.inj same ▸ .setThread
  rcases ite_eq_iff.mp found with ⟨rfl, same⟩ | ⟨-, found⟩
  · exact Option.some.inj same ▸ .step
  rcases ite_eq_iff.mp found with ⟨rfl, same⟩ | ⟨-, found⟩
  · exact Option.some.inj same ▸ .writeGeneralRegisters
  rcases ite_eq_iff.mp found with ⟨rfl, same⟩ | ⟨-, found⟩
  · exact Option.some.inj same ▸ .writeMemoryBinary
  rcases ite_eq_iff.mp found with ⟨rfl, same⟩ | ⟨-, found⟩
  · exact Option.some.inj same ▸ .writeRegister
  · cases found

/-- The session after the acknowledgement. -/
def Session.acknowledged (gdb : Session) : Session :=
  { gdb with sent := gdb.sent ++ text "+" }

/-- What a handler finds behind the first `k` bytes of the payload. -/
theorem drop_heldRequest (payload digits behind : List (BitVec 8)) {k : Nat}
    (inside : k ≤ payload.length)
    : (heldRequest payload digits behind).drop (k + 1)
      = payload.drop k ++ (0 :: digits ++ 0 :: behind) := by
  rw [heldRequest, List.append_assoc, List.cons_append, List.drop_succ_cons,
    List.drop_append_of_le_length inside]

/-- The string that a handler finds behind the first `k` bytes of the payload. -/
theorem stringAt_heldRequest (payload digits behind : List (BitVec 8)) {k : Nat}
    (inside : k ≤ payload.length)
    : stringAt (heldRequest payload digits behind) (k + 1)
      = (payload.drop k).takeWhile fun c => c ≠ 0 := by
  rw [stringAt, drop_heldRequest payload digits behind inside, List.takeWhile_append]
  split
  · next whole =>
      rw [List.cons_append, List.takeWhile_cons_of_neg (by simp), List.append_nil]
      exact ((List.takeWhile_prefix _).eq_of_length whole).symm
  · rfl

theorem getD_heldRequest (payload digits behind : List (BitVec 8)) (k : Nat)
    (inside : k < payload.length)
    : (heldRequest payload digits behind).getD (k + 1) 0 = payload.getD k 0 := by
  rw [heldRequest, List.append_assoc, List.cons_append, List.getD_cons_succ,
    List.getD_append _ _ _ _ inside]

/-- The handler of a command gets the held request. -/
theorem dispatch_heldRequest {env : Env} {command : BitVec 8}
    {handle : List (BitVec 8) → Nat → Act Unit} (found : handler env command = some handle)
    (rest digits behind : List (BitVec 8))
    : dispatch env (heldRequest (command :: rest) digits behind)
      = handle (heldRequest (command :: rest) digits behind) 2 := by
  have index : (heldRequest (command :: rest) digits behind).getD 1 0 = command :=
    getD_heldRequest (command :: rest) digits behind 0 (Nat.succ_pos _)
  rw [dispatch, index, found]

/-- The session after a packet with another checksum. -/
def Session.rejected (gdb : Session) : Session :=
  { gdb with sent := gdb.sent ++ text "-" }

/-- The checksum of a packet is compared with its last two digits. Witness: the loop ends at the `#`
in front of them.
-/
theorem gdbPacketAnalysis_eq (env : Env) {digits : List (BitVec 8)} (hex : IsHex digits)
    (two : digits.length = 2) (payload behind : List (BitVec 8)) (gdb : Session)
    : gdbPacketAnalysis env (requestBuffer payload digits behind) (payload.length + 4) gdb
      = if hexValue digits = (checksum payload).toNat then
          dispatch env (heldRequest payload digits behind) gdb.acknowledged
        else { events := [], result := .ok ((), gdb.rejected) } := by
  have index : max 1 (payload.length + 4 - 3) = payload.length + 1 := by omega
  have summed : ((requestBuffer payload digits behind).take (payload.length + 1)).drop 1
      = payload := by
    simp [requestBuffer]
  have field
      : stringAt (requestBuffer payload digits behind) (payload.length + 1 + 1) = digits := by
    have whole : requestBuffer payload digits behind
        = (ascii '$' :: payload ++ [ascii '#']) ++ (digits ++ 0 :: behind) := by
      simp [requestBuffer]
    have length : (ascii '$' :: payload ++ [ascii '#']).length = payload.length + 1 + 1 := by
      simp
    have found := stringAt_append (ascii '$' :: payload ++ [ascii '#']) digits behind
      fun c member => (hexDigit_plain c (hex.2 c member)).2.2.2.2.2
    rwa [← whole, length] at found
  have held : (requestBuffer payload digits behind).set (payload.length + 1) 0
      = heldRequest payload digits behind := by
    simp [requestBuffer, heldRequest]
  have small : hexValue digits < 256 := by
    have bound := readDigits_lt 0 digits
    rwa [two] at bound
  have unsigned : 0 ≤ (hexValue digits : Int) ∧ (hexValue digits : Int) < 2 ^ 32 := by omega
  have given : BitVec.ofInt 32 (hexValue digits : Int) = BitVec.ofNat 32 (hexValue digits) := rfl
  have compared : (checksum payload).setWidth 32 = BitVec.ofNat 32 (hexValue digits)
      ↔ hexValue digits = (checksum payload).toNat := by
    have bound := (checksum payload).isLt
    rw [← BitVec.toNat_inj, BitVec.toNat_setWidth, BitVec.toNat_ofNat]
    omega
  rw [gdbPacketAnalysis]
  simp only [index, summed, field, held, scanHex_of_isHex hex, Option.map_some, useScanned, unsigned,
    and_self, if_true, given]
  by_cases same : hexValue digits = (checksum payload).toNat
  · rw [if_pos same]
    change (if _ then _ else _ : Act Unit) gdb = _
    rw [if_pos (compared.mpr same)]
    rfl
  · rw [if_neg same]
    change (if _ then _ else _ : Act Unit) gdb = _
    rw [if_neg fun equal => same (compared.mp equal)]
    rfl

/-- A packet with a valid checksum is acknowledged and dispatched. -/
theorem meets_gdbPacketAnalysis {allowed : Event → Prop} {stopped : Stop → Prop}
    {post : Unit → Session → Prop} {gdb : Session} (env : Env) {payload digits : List (BitVec 8)}
    (behind : List (BitVec 8)) (valid : ChecksumDigits payload digits)
    : Meets allowed stopped post
        (gdbPacketAnalysis env (requestBuffer payload digits behind) (payload.length + 4)) gdb
      ↔ Meets allowed stopped post (dispatch env (heldRequest payload digits behind))
          gdb.acknowledged := by
  obtain ⟨hex, two, sum⟩ := valid
  rw [Meets, gdbPacketAnalysis_eq env hex two, if_pos sum]
  exact Iff.rfl

section Running

variable {allowed : Event → Prop} {post : Unit → Session → Prop}

/-- An instruction that returns leaves its processor and its result. -/
theorem meets_stepArm_iff {stopped : Stop → Prop} (env : Env) (gdb : Session)
    : Meets allowed stopped post (stepArm env) gdb
      ↔ match armStep env.host gdb.arm with
        | .returned result arm => post () { gdb with arm, targetException := result }
        | .exited status => stopped (.exited status) := by
  rw [stepArm, meets_bind, meets_get]
  cases armStep env.host gdb.arm with
  | returned result arm => exact meets_modify _
  | exited status => exact meets_stop _

/-- Instructions neither write to the packet nor read a request. -/
theorem meets_stepArm (env : Env) (gdb : Session) (all : ∀ t, post () t)
    : Meets allowed (fun _ => True) post (stepArm env) gdb := by
  rw [meets_stepArm_iff]
  cases armStep env.host gdb.arm with
  | returned result arm => exact all _
  | exited status => trivial

/-- One iteration ends the loop at a breakpoint, or executes an instruction and goes on. -/
theorem meets_contLoop_succ {stopped : Stop → Prop} (env : Env) (fuel : Nat)
    (instruction : BitVec 32) (gdb : Session)
    : Meets allowed stopped post (contLoop env (fuel + 1) instruction) gdb
      ↔ let word :=
          (armReadWord env.host gdb.arm (armReadRegister gdb.arm 15 - 4) instruction).2
        if word &&& 0xFFF000F0 = 0xE7F000F0 then post () gdb
        else
          Meets allowed stopped
            (fun _ t => Meets allowed stopped post (contLoop env fuel word) t)
            (stepArm env) gdb := by
  rw [contLoop, meets_bind, meets_get]
  dsimp only
  split
  · exact meets_pure ()
  · exact meets_bind _ _

/-- What every instruction keeps holds at the end, by induction on the number of instructions. -/
theorem meets_contLoop_of_step (env : Env) {invariant : Session → Prop}
    (step
      : ∀ gdb, invariant gdb
        → Meets allowed (fun _ => True) (fun _ t => invariant t) (stepArm env) gdb)
    (fuel : Nat) (instruction : BitVec 32) {gdb : Session} (holds : invariant gdb)
    : Meets allowed (fun _ => True) (fun _ t => invariant t) (contLoop env fuel instruction)
        gdb := by
  induction fuel generalizing instruction gdb with
  | zero => exact (meets_stop _).mpr trivial
  | succ fuel ih =>
      rw [meets_contLoop_succ]
      dsimp only
      split
      · exact holds
      · exact (step gdb holds).mono fun _ t kept => ih _ kept

theorem meets_contLoop (env : Env) (fuel : Nat) (instruction : BitVec 32) (gdb : Session)
    (all : ∀ t, post () t)
    : Meets allowed (fun _ => True) post (contLoop env fuel instruction) gdb := by
  have step (gdb : Session) (_ : True)
      : Meets allowed (fun _ => True) (fun _ _ => True) (stepArm env) gdb :=
    meets_stepArm env gdb fun _ => trivial
  exact (meets_contLoop_of_step env step fuel instruction trivial).mono fun _ t _ => all t

end Running

end Armator.Gdb
