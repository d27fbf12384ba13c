import Armator.Correctness.RequestSafety

/-! When a refused write with `X` leaves memory alone. -/

namespace Armator.Gdb

open CText Traced ByteStuffing

/-- The data stand for as many bytes as announced, and all addresses are inside memory. -/
def CompleteWrite (mem : Memory) (addressText sizeText encoding : List (BitVec 8)) : Prop :=
  (∃ data, decode 0x7d 0x20 (hexValue sizeText) encoding = some (data, []))
  ∧ ∀ i < hexValue sizeText, hexValue addressText + i < mem.size

/-- The index behind the colon of a held write request. -/
def contentStart (addressText sizeText : List (BitVec 8)) : Nat :=
  addressText.length + sizeText.length + 4

/-- Content is read behind the colon and in front of the place of the `#`. -/
def ReadsInContent (addressText sizeText encoding : List (BitVec 8)) : Event → Prop
  | .readByte position =>
      contentStart addressText sizeText ≤ position
      ∧ position < contentStart addressText sizeText + encoding.length
  | .write index => index < MAX_PACKET_SIZE
  | _ => True

/-- The request was answered, and if it is not complete then with an error and with no byte of
memory changed.
-/
def Refuses (gdb : Session) (complete : Prop) (t : Session) : Prop :=
  ∃ reply,
    t.sent = gdb.sent ++ text "+" ++ frame reply
    ∧ (¬ complete → IsErrorReply reply ∧ t.arm.mem = gdb.arm.mem)

/-- The write `X` address, size, data with this checksum is all or nothing, and its content is read
from the data only.
-/
def AllOrNothing (env : Env) (gdb : Session)
    (addressText sizeText encoding digits behind : List (BitVec 8))
    : Prop :=
  Meets (ReadsInContent addressText sizeText encoding) (fun _ => False)
    (fun _ t => Refuses gdb (CompleteWrite gdb.arm.mem addressText sizeText encoding) t)
    (gdbPacketAnalysis env (requestBuffer (writeRequest addressText sizeText encoding) digits behind)
      ((writeRequest addressText sizeText encoding).length + 4))
    gdb

/-- The address and the size that the handler uses. -/
def scannedAddress (env : Env) (addressText : List (BitVec 8)) : BitVec 32 :=
  scannedValue env env.unset.address (some (hexValue addressText : Int))

def scannedSize (env : Env) (sizeText : List (BitVec 8)) : BitVec 32 :=
  scannedValue env env.unset.size (some (hexValue sizeText : Int))

theorem refuses_iff (gdb : Session) (complete : Prop) (arm : ArmCore) (reply : List (BitVec 8))
    : Refuses gdb complete (Session.replied { gdb.acknowledged with arm } reply)
      ↔ (¬ complete → IsErrorReply reply ∧ arm.mem = gdb.arm.mem) := by
  have sent : ({ gdb.acknowledged with arm } : Session).sent = gdb.acknowledged.sent := rfl
  exact exists_reply_iff sent reply _

/-- OK is for complete requests only. -/
theorem refuses_OK (gdb : Session) (complete : Prop) (arm : ArmCore)
    : Refuses gdb complete (Session.replied { gdb.acknowledged with arm } (text "OK"))
      ↔ complete := by
  rw [refuses_iff]
  constructor
  · intro refused
    by_contra incomplete
    exact not_isErrorReply_OK (refused incomplete).1
  · intro whole incomplete
    exact absurd whole incomplete

/-- E02 is for complete requests, or where memory is the same. -/
theorem refuses_E02 (gdb : Session) (complete : Prop) (arm : ArmCore)
    : Refuses gdb complete (Session.replied { gdb.acknowledged with arm } (text "E02"))
      ↔ complete ∨ arm.mem = gdb.arm.mem := by
  rw [refuses_iff]
  constructor
  · intro refused
    by_cases whole : complete
    · exact .inl whole
    · exact .inr (refused whole).2
  · rintro (whole | same) incomplete
    · exact absurd whole incomplete
    · exact ⟨isErrorReply_E02, same⟩

/-- The reply behind the loop is OK if it stored all bytes, and E02 if memory ended before. -/
theorem refuses_stored {request s tail data rest : List (BitVec 8)} {n content : Nat}
    {address : BitVec 32} (gdb : Session) (complete : Prop)
    (held : request.drop content = s ++ tail)
    (decoded
      : decode 0x7d 0x20 (min (readable gdb.arm.mem n address + 1) n) s = some (data, rest))
    : let stored := storedBinary request n address content gdb.arm.mem
      let k := readable gdb.arm.mem n address
      Refuses gdb complete
          (Session.replied { gdb.acknowledged with arm := { gdb.arm with mem := stored.2 } }
            (if stored.1 then text "OK" else text "E02"))
        ↔ complete ∨ k < n ∧ withBytes gdb.arm.mem address (data.take k) = gdb.arm.mem := by
  dsimp only
  rw [storedBinary_eq held decoded]
  rcases Nat.eq_or_lt_of_le (readable_le gdb.arm.mem n address) with all | below
  · rw [decide_eq_true all, if_pos rfl]
    have noStop {p : Prop} : ¬ (readable gdb.arm.mem n address < n ∧ p) := fun stops =>
      absurd all (Nat.ne_of_lt stops.1)
    exact (refuses_OK gdb _ _).trans (or_iff_left noStop).symm
  · rw [decide_eq_false (Nat.ne_of_lt below), if_neg Bool.false_ne_true]
    exact (refuses_E02 gdb _ _).trans (or_congr_right (and_iff_right below).symm)

/-- The loop only reads behind its start, by induction on the size. -/
theorem readsContent_congr {allowed other : Event → Prop} {start : Nat}
    (same : ∀ i, start ≤ i → (allowed (.readByte i) ↔ other (.readByte i)))
    (request : List (BitVec 8)) (memSize n : Nat) (address : BitVec 32) {content : Nat}
    (later : start ≤ content)
    : ReadsContent allowed request memSize n address content
      ↔ ReadsContent other request memSize n address content := by
  induction n generalizing address content with
  | zero => exact Iff.rfl
  | succ n ih =>
      have next : start ≤ if request.getD content 0 = 0x7d then content + 1 else content := by
        split
        · exact Nat.le_succ_of_le later
        · exact later
      rw [ReadsContent, ReadsContent]
      exact and_congr (same _ later)
        (and_congr (same _ next)
          (forall_congr' fun _ => ih (address + 1) (Nat.le_succ_of_le next)))

/-- The variable never holds more than the number in the text. -/
theorem scannedValue_le (env : Env) (old : BitVec 32) (n : Nat)
    : (scannedValue env old (some (n : Int))).toNat ≤ n := by
  by_cases fits : n < 2 ^ 32
  · have same := scannedValue_toNat env old (BitVec.ofNat 32 n)
    rw [BitVec.toNat_ofNat, Nat.mod_eq_of_lt fits] at same
    rw [same, BitVec.toNat_ofNat]
    exact Nat.mod_le n (2 ^ 32)
  · exact Nat.le_trans (Nat.le_of_lt (BitVec.isLt _)) (Nat.le_of_not_lt fits)

section Writes

variable {env : Env} {gdb : Session} {addressText sizeText encoding digits : List (BitVec 8)}
  (isAddress : IsHex addressText) (isSize : IsHex sizeText) (behind : List (BitVec 8))

theorem length_writeRequest (addressText sizeText encoding : List (BitVec 8))
    : (writeRequest addressText sizeText encoding).length + 1
      = contentStart addressText sizeText + encoding.length := by
  simp only [writeRequest, contentStart, List.length_cons, List.length_append]
  omega

/-- The content is long enough for the loop. -/
theorem readsContent_writeRequest (digits : List (BitVec 8)) (mem : Memory) (n : Nat)
    (address : BitVec 32)
    : ReadsContent (ReadsInContent addressText sizeText encoding)
        (heldRequest (writeRequest addressText sizeText encoding) digits behind) mem.size n address
        (contentStart addressText sizeText)
      ↔ (decode 0x7d 0x20 (min (readable mem n address + 1) n) encoding).isSome := by
  have length := length_writeRequest addressText sizeText encoding
  have same (i : Nat) (later : contentStart addressText sizeText ≤ i)
      : ReadsInContent addressText sizeText encoding (.readByte i)
        ↔ Permitted (writeRequest addressText sizeText encoding) (.readByte i) := by
    simp only [ReadsInContent, Permitted, terminator, length]
    exact and_iff_right later
  have inside : addressText.length + sizeText.length + 1 + 2
      ≤ (writeRequest addressText sizeText encoding).length := by
    simp only [contentStart] at length
    omega
  have content : (writeRequest addressText sizeText encoding).drop
      (addressText.length + sizeText.length + 1 + 2) = encoding :=
    drop_writeRequest encoding
  have read := readsContent_iff _ digits behind mem n address inside
  rw [content] at read
  rw [readsContent_congr same _ _ _ _ (Nat.le_refl _)]
  exact read

include isAddress isSize

/-- What the handler reads from the colon on. -/
theorem drop_contentStart (encoding digits : List (BitVec 8))
    : (heldRequest (writeRequest addressText sizeText encoding) digits behind).drop
        (contentStart addressText sizeText)
      = encoding ++ (0 :: digits ++ 0 :: behind) := by
  have inside := indexOf_arguments_lt (indexOf_writeRequest isAddress isSize encoding)
  have dropped := drop_heldRequest (writeRequest addressText sizeText encoding) digits behind inside
  rwa [drop_writeRequest] at dropped

/-- What becomes of the request, by the branches of the handler. -/
theorem allOrNothing_iff_branches
    (valid : ChecksumDigits (writeRequest addressText sizeText encoding) digits)
    : AllOrNothing env gdb addressText sizeText encoding digits behind
      ↔ let complete := CompleteWrite gdb.arm.mem addressText sizeText encoding
        let address := scannedAddress env addressText
        let size := scannedSize env sizeText
        if gdb.arm.mem.size ≤ address.toNat then True
        else if size = 0 then complete
        else
          let k := readable gdb.arm.mem size.toNat address
          ∃ data rest,
            decode 0x7d 0x20 (min (k + 1) size.toNat) encoding = some (data, rest)
            ∧ (complete
              ∨ k < size.toNat ∧ withBytes gdb.arm.mem address (data.take k) = gdb.arm.mem) := by
  have checked : ∀ i, ReadsInContent addressText sizeText encoding (.write i)
      ↔ i < MAX_PACKET_SIZE := fun _ => Iff.rfl
  have found : handler env (ascii 'X') = some (writeMemoryBinary env) := rfl
  have string : stringAt (heldRequest (writeRequest addressText sizeText encoding) digits behind) 2
      = arguments (writeRequest addressText sizeText encoding) :=
    stringAt_arguments _ _ _ _
  have handled : dispatch env
        (heldRequest (writeRequest addressText sizeText encoding) digits behind)
      = writeMemoryBinary env
          (heldRequest (writeRequest addressText sizeText encoding) digits behind) 2 :=
    dispatch_heldRequest found _ digits behind
  have mem : gdb.acknowledged.arm.mem = gdb.arm.mem := rfl
  rw [AllOrNothing, meets_gdbPacketAnalysis env behind valid, handled,
    meets_writeMemoryBinary checked, string, scanHexPair_writeRequest isAddress isSize,
    indexOf_writeRequest isAddress isSize, mem]
  refine (and_iff_right trivial).trans ?_
  refine (and_iff_right fun _ => trivial).trans ?_
  refine (and_iff_right fun _ => trivial).trans ?_
  dsimp only
  rw [← scannedAddress, ← scannedSize]
  by_cases outside : gdb.arm.mem.size ≤ (scannedAddress env addressText).toNat
  · rw [if_pos outside, if_pos outside]
    exact iff_of_true ((refuses_E02 gdb _ gdb.arm).mpr (.inr rfl)) trivial
  rw [if_neg outside, if_neg outside]
  by_cases none : scannedSize env sizeText = 0
  · rw [if_pos none, if_pos none]
    exact refuses_OK gdb _ gdb.arm
  rw [if_neg none, if_neg none]
  have place : 2 + (addressText.length + sizeText.length + 1) + 1
      = contentStart addressText sizeText := by
    simp only [contentStart]
    omega
  have held := drop_contentStart isAddress isSize behind encoding digits
  rw [place, readsContent_writeRequest behind, Option.isSome_iff_exists]
  constructor
  · rintro ⟨⟨⟨data, rest⟩, decoded⟩, answered⟩
    exact ⟨data, rest, decoded, (refuses_stored gdb _ held decoded).mp answered⟩
  · rintro ⟨data, rest, decoded, allowed⟩
    exact ⟨⟨(data, rest), decoded⟩, (refuses_stored gdb _ held decoded).mpr allowed⟩

omit isAddress isSize in
/-- A complete request has content for the loop. -/
theorem CompleteWrite.decodes {mem : Memory}
    (complete : CompleteWrite mem addressText sizeText encoding) (env : Env) (k : Nat)
    : (decode 0x7d 0x20 (min (k + 1) (scannedSize env sizeText).toNat) encoding).isSome := by
  obtain ⟨⟨data, decoded⟩, -⟩ := complete
  have fewer : min (k + 1) (scannedSize env sizeText).toNat ≤ hexValue sizeText :=
    Nat.le_trans (Nat.min_le_right _ _) (scannedValue_le env env.unset.size (hexValue sizeText))
  exact decode_isSome_of_le fewer (Option.isSome_iff_exists.mpr ⟨_, decoded⟩)

/-- Which writes are all or nothing: complete ones, those that start outside memory and those that
store, before they leave memory, only what it holds already. Of all others a part is written, or an
announced byte is taken from behind the `#`.
-/
theorem allOrNothing_iff
    (valid : ChecksumDigits (writeRequest addressText sizeText encoding) digits)
    : AllOrNothing env gdb addressText sizeText encoding digits behind
      ↔ CompleteWrite gdb.arm.mem addressText sizeText encoding
        ∨ gdb.arm.mem.size ≤ (scannedAddress env addressText).toNat
        ∨ RunsOut gdb.arm.mem (scannedAddress env addressText) (scannedSize env sizeText)
            (writeRequest addressText sizeText encoding) := by
  have colon := indexOf_writeRequest isAddress isSize encoding
  have content : (writeRequest addressText sizeText encoding).drop
      (addressText.length + sizeText.length + 1 + 2) = encoding :=
    drop_writeRequest encoding
  rw [allOrNothing_iff_branches isAddress isSize behind valid]
  dsimp only
  by_cases outside : gdb.arm.mem.size ≤ (scannedAddress env addressText).toNat
  · rw [if_pos outside]
    exact iff_of_true trivial (.inr (.inl outside))
  rw [if_neg outside, or_iff_right outside]
  by_cases none : scannedSize env sizeText = 0
  · rw [if_pos none]
    refine (or_iff_left fun stops => ?_).symm
    obtain ⟨_, k, _, _, _, below, _⟩ := stops
    rw [none] at below
    exact absurd below (Nat.not_lt_zero k)
  rw [if_neg none]
  constructor
  · rintro ⟨data, rest, decoded, complete | ⟨below, same⟩⟩
    · exact .inl complete
    · have first := (readable_eq_iff gdb.arm.mem _ _ below).mp rfl
      have length := length_of_decode decoded
      rw [Nat.min_eq_left below] at decoded length
      have written := memoryBytes_withBytes gdb.arm.mem (scannedAddress env addressText)
        (data.take (readable gdb.arm.mem (scannedSize env sizeText).toNat
          (scannedAddress env addressText))) (by rw [List.length_take, length]; omega)
      rw [same, List.length_take, length, Nat.min_eq_left (Nat.le_succ _)] at written
      rw [← content] at decoded
      exact .inr ⟨_, _, data, rest, colon, below, first.1, first.2, decoded, written⟩
  · rintro (complete | ⟨_, k, data, rest, place, below, before, ended, decoded, same⟩)
    · obtain ⟨⟨data, rest⟩, decoded⟩ := Option.isSome_iff_exists.mp
        (complete.decodes env (readable gdb.arm.mem (scannedSize env sizeText).toNat
          (scannedAddress env addressText)))
      exact ⟨data, rest, decoded, .inl complete⟩
    · obtain rfl := Option.some.inj (colon.symm.trans place)
      have reach := (readable_eq_iff gdb.arm.mem _ _ below).mpr ⟨before, ended⟩
      have taken : (data.take k).length = k := by
        rw [List.length_take, length_of_decode decoded, Nat.min_eq_left (Nat.le_succ k)]
      rw [content] at decoded
      rw [reach, Nat.min_eq_left below]
      refine ⟨data, rest, decoded, .inr ⟨below, withBytes_self _ _ _ ?_⟩⟩
      rw [taken]
      exact same

end Writes

/-- `X0,2:AB` of a memory with four bytes. -/
theorem twoBytes_allOrNothing
    : AllOrNothing .plain (oneWordSession 4) (text "0") (text "2") (text "AB")
        (checksumText (text "X0,2:AB")) [] := by
  have decoded : decode 0x7d 0x20 (hexValue (text "2")) (text "AB") = some (text "AB", []) := by
    decide +kernel
  have inside
      : ∀ i < hexValue (text "2"), hexValue (text "0") + i < (oneWordSession 4).arm.mem.size := by
    decide +kernel
  exact (allOrNothing_iff (by decide +kernel) (by decide +kernel) [] (by decide +kernel)).mpr
    (.inl ⟨⟨_, decoded⟩, inside⟩)

/-- `X3,2:AB` of a memory with four bytes: E02, but the last byte is written before. -/
theorem lastByte_writtenBeforeError
    : ChecksumDigits (writeRequest (text "3") (text "2") (text "AB"))
        (checksumText (text "X3,2:AB"))
      ∧ ¬ AllOrNothing .plain (oneWordSession 4) (text "3") (text "2") (text "AB")
          (checksumText (text "X3,2:AB")) [] := by
  have valid : ChecksumDigits (writeRequest (text "3") (text "2") (text "AB"))
      (checksumText (text "X3,2:AB")) := by
    decide +kernel
  refine ⟨valid, fun met => ?_⟩
  have branches :=
    (allOrNothing_iff_branches (by decide +kernel) (by decide +kernel) [] valid).mp met
  have inside : ¬ (oneWordSession 4).arm.mem.size ≤ (scannedAddress .plain (text "3")).toNat := by
    decide +kernel
  have announced : ¬ scannedSize .plain (text "2") = 0 := by decide +kernel
  have reach : readable (oneWordSession 4).arm.mem (scannedSize .plain (text "2")).toNat
      (scannedAddress .plain (text "3")) = 1 := by
    decide +kernel
  have two : decode 0x7d 0x20 (min (1 + 1) (scannedSize .plain (text "2")).toNat) (text "AB")
      = some (text "AB", []) := by
    decide +kernel
  dsimp only at branches
  rw [if_neg inside, if_neg announced, reach, two] at branches
  obtain ⟨data, rest, decoded, complete | ⟨-, same⟩⟩ := branches
  · exact absurd (complete.2 1 (by decide +kernel)) (by decide +kernel)
  · obtain ⟨rfl, rfl⟩ := Prod.mk.inj (Option.some.inj decoded)
    have byte := congrArg (fun mem => mem.data 3) same
    exact absurd byte (by decide +kernel)

end Armator.Gdb
