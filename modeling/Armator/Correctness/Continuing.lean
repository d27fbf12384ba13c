import Armator.Correctness.BinaryWrites
import Armator.Correctness.UndefinedSpace
import Armator.Simulator.Runs

/-! Where `cont` ends. -/

namespace Armator.Gdb

open CText Traced

/-- The word at the address of the next fetch can be read, and is this one. -/
def NextWord (host : Host) (p : ArmCore) (word : BitVec 32) : Prop :=
  armReadWord host p (fetchAddress p) 0 = (0, word)

def AtBreakpoint (host : Host) (p : ArmCore) : Prop :=
  ∃ word, NextWord host p word ∧ IsBreakpoint word

/-- `q` is reached from `p` with the least number of steps behind which the next word is a
breakpoint, and no instruction executed on the way is one.
-/
def RunsToBreakpoint (host : Host) (p q : ArmCore) : Prop :=
  ∃ k result,
    armSteps host k p = .returned result q
    ∧ AtBreakpoint host q
    ∧ ∀ j < k, ∃ result r,
        armSteps host j p = .returned result r
        ∧ ¬ AtBreakpoint host r
        ∧ ∀ ins, Fetches host r ins → ¬ IsBreakpoint ins

section Words

variable {host : Host} {p q : ArmCore} {word : BitVec 32}

theorem nextWord_iff
    : NextWord host p word
      ↔ p.mem.Accessible 4 (fetchAddress p)
        ∧ ByteStore.load (p.mem.order host) 32 p.mem.data (fetchAddress p).toNat = word := by
  rw [NextWord, armReadWord, memoryReadWord_eq]
  split
  · next inside =>
      rw [Prod.mk.injEq]
      exact and_congr_left fun _ => iff_of_true rfl inside
  · next outside =>
      refine iff_of_false (fun read => ?_) fun read => outside read.1
      exact absurd (congrArg Prod.fst read) (show ¬ (-1 : Int) = 0 by decide)

/-- What is executed is the next word. -/
theorem nextWord_of_fetches (fetched : Fetches host p word) : NextWord host p word :=
  nextWord_iff.mpr ⟨fetched.accessible.1, fetched.accessible.2.symm⟩

/-- The loop of `cont` sees the next word, or its variable as it was before. -/
theorem peeked_isBreakpoint_iff (host : Host) (p : ArmCore) (instruction : BitVec 32)
    : IsBreakpoint (armReadWord host p (fetchAddress p) instruction).2
      ↔ AtBreakpoint host p ∨ IsBreakpoint instruction ∧ ¬ ∃ word, NextWord host p word := by
  simp only [AtBreakpoint, nextWord_iff, armReadWord, memoryReadWord_eq]
  by_cases inside : p.mem.Accessible 4 (fetchAddress p)
  · simp [inside]
  · simp [inside]

/-- Steps behind a first one. -/
theorem armSteps_of_armStep {first result : Int} {r : ArmCore}
    (stepped : armStep host p = .returned first q) {n : Nat}
    (run : armSteps host n q = .returned result r)
    : ∃ result, armSteps host (n + 1) p = .returned result r := by
  induction n generalizing result r with
  | zero =>
      obtain ⟨-, rfl⟩ := Outcome.returned.inj run
      exact ⟨first, stepped⟩
  | succ n ih =>
      rw [armSteps] at run
      cases before : armSteps host n q with
      | returned _ s =>
          rw [before] at run
          obtain ⟨_, earlier⟩ := ih before
          refine ⟨result, ?_⟩
          rw [armSteps, earlier]
          exact run
      | exited status =>
          rw [before] at run
          cases run

theorem RunsToBreakpoint.here (breakpoint : AtBreakpoint host p) : RunsToBreakpoint host p p :=
  ⟨0, 0, rfl, breakpoint, fun j below => absurd below (Nat.not_lt_zero j)⟩

theorem RunsToBreakpoint.step {result : Int} {r : ArmCore} (ordinary : ¬ AtBreakpoint host p)
    (stepped : armStep host p = .returned result q) (run : RunsToBreakpoint host q r)
    : RunsToBreakpoint host p r := by
  obtain ⟨k, last, steps, breakpoint, earlier⟩ := run
  obtain ⟨_, whole⟩ := armSteps_of_armStep stepped steps
  refine ⟨k + 1, _, whole, breakpoint, fun j below => ?_⟩
  cases j with
  | zero =>
      exact ⟨0, p, rfl, ordinary, fun ins fetched breakpoint =>
        ordinary ⟨ins, nextWord_of_fetches fetched, breakpoint⟩⟩
  | succ j =>
      obtain ⟨_, s, reached, others⟩ := earlier j (Nat.lt_of_succ_lt_succ below)
      obtain ⟨_, longer⟩ := armSteps_of_armStep stepped reached
      exact ⟨_, s, longer, others⟩

end Words

section Loop

variable {allowed : Event → Prop} {stopped : Stop → Prop} {post : Unit → Session → Prop} {env : Env}
  {fuel : Nat} {instruction : BitVec 32} {gdb : Session}

/-- The loop ends at once if the word it sees is a breakpoint. -/
theorem meets_contLoop_hit
    (hit
      : IsBreakpoint (armReadWord env.host gdb.arm (fetchAddress gdb.arm) instruction).2)
    (here : post () gdb)
    : Meets allowed stopped post (contLoop env (fuel + 1) instruction) gdb := by
  rw [IsBreakpoint, fetchAddress] at hit
  rw [meets_contLoop_succ]
  dsimp only
  rwa [if_pos hit]

/-- The loop executes any other word and goes on with what it has seen. -/
theorem meets_contLoop_miss
    (miss
      : ¬ IsBreakpoint (armReadWord env.host gdb.arm (fetchAddress gdb.arm) instruction).2)
    (step
      : Meets allowed stopped
          (fun _ s => Meets allowed stopped post
            (contLoop env fuel
              (armReadWord env.host gdb.arm (fetchAddress gdb.arm) instruction).2)
            s)
          (stepArm env) gdb)
    : Meets allowed stopped post (contLoop env (fuel + 1) instruction) gdb := by
  rw [IsBreakpoint, fetchAddress] at miss
  rw [meets_contLoop_succ]
  dsimp only
  rwa [if_neg miss]

end Loop

/-- The loop runs to a breakpoint if it does not take the old content of its variable for one: what
is left there by an iteration that goes on is none. By induction on the number of iterations.
-/
theorem meets_contLoop_breakpoint {allowed : Event → Prop} (env : Env) (fuel : Nat)
    (instruction : BitVec 32) (gdb : Session)
    (fresh : IsBreakpoint instruction → ∃ word, NextWord env.host gdb.arm word)
    : Meets allowed (fun _ => True) (fun _ t => RunsToBreakpoint env.host gdb.arm t.arm)
        (contLoop env fuel instruction) gdb := by
  induction fuel generalizing instruction gdb with
  | zero => exact (meets_stop _).mpr trivial
  | succ fuel ih =>
      have peeked := peeked_isBreakpoint_iff env.host gdb.arm instruction
      by_cases hit
          : IsBreakpoint (armReadWord env.host gdb.arm (fetchAddress gdb.arm) instruction).2
      · refine meets_contLoop_hit hit (.here ?_)
        exact (peeked.mp hit).resolve_right fun stale => stale.2 (fresh stale.1)
      · have ordinary : ¬ AtBreakpoint env.host gdb.arm := fun breakpoint =>
          hit (peeked.mpr (.inl breakpoint))
        refine meets_contLoop_miss hit ?_
        rw [meets_stepArm_iff]
        cases stepped : armStep env.host gdb.arm with
        | returned result arm =>
            refine (ih _ _ fun old => absurd old hit).mono fun _ t run => ?_
            exact run.step ordinary stepped
        | exited status => trivial

/-- The reply leaves the processor alone. -/
theorem meets_cont_arm (post : ArmCore → Prop) {stopped : Stop → Prop} {env : Env} {gdb : Session}
    (loop
      : Meets InPacket stopped (fun _ t => post t.arm)
          (contLoop env env.fuel env.unset.instruction) gdb)
    : Meets InPacket stopped (fun _ t => post t.arm) (cont env) gdb := by
  have checked : ∀ i, InPacket (.write i) ↔ i < MAX_PACKET_SIZE := fun _ => Iff.rfl
  rw [cont, meets_bind]
  exact loop.mono fun _ t reached => (meets_sendStopReason checked).mpr reached

/-- Where `cont` returns, it has run to a breakpoint, except when the word of the first fetch cannot
be read and the variable happened to hold a breakpoint.
-/
theorem cont_runsToBreakpoint_iff (env : Env) {gdb t : Session}
    (returns : (cont env gdb).result = .ok ((), t))
    : RunsToBreakpoint env.host gdb.arm t.arm
      ↔ ¬ (IsBreakpoint env.unset.instruction ∧ ¬ ∃ word, NextWord env.host gdb.arm word) := by
  have ended (post : ArmCore → Prop)
      (met : Meets InPacket (fun _ => True) (fun _ t => post t.arm) (cont env) gdb)
      : post t.arm := by
    have result := met.2
    rwa [returns] at result
  constructor
  · rintro ⟨k, result, -, ⟨word, next, -⟩, -⟩ ⟨breakpoint, unreadable⟩
    cases fuel : env.fuel with
    | zero =>
        have stops : Meets InPacket (fun _ => True) (fun _ _ => False) (cont env) gdb := by
          rw [cont, fuel, meets_bind]
          exact (meets_stop _).mpr trivial
        exact ended (fun _ => False) stops
    | succ n =>
        have hit := (peeked_isBreakpoint_iff env.host gdb.arm env.unset.instruction).mpr
          (.inr ⟨breakpoint, unreadable⟩)
        have same : t.arm = gdb.arm := by
          refine ended (fun arm => arm = gdb.arm) (meets_cont_arm (fun arm => arm = gdb.arm) ?_)
          rw [fuel]
          exact meets_contLoop_hit hit rfl
        exact unreadable ⟨word, same ▸ next⟩
  · intro fresh
    refine ended _ (meets_cont_arm _ (meets_contLoop_breakpoint env _ _ gdb fun breakpoint => ?_))
    by_contra unreadable
    exact fresh ⟨breakpoint, unreadable⟩

/-- A server that follows `cont` for two instructions, with the old content of its variable. -/
def Env.following (instruction : BitVec 32) : Env :=
  { Env.plain with
    unset := { Env.plain.unset with instruction }
    fuel := 2 }

/-- A first session of a processor with ADD r0, r0, r0 and a breakpoint behind it. -/
def breakpointSession : Session :=
  gdbInitData
    (armCreate (memoryCreate 8 0 fun i =>
      if i < 4 then ByteOrder.little.byteOf (0xE0800000 : BitVec 32) i
      else ByteOrder.little.byteOf (0xE7F000F0 : BitVec 32) (i - 4)))
    fun _ => 0

/-- A first session whose pc is behind the end of memory. -/
def outsideSession : Session :=
  gdbInitData (armWriteRegister (oneWord 4 0) 15 4) fun _ => 0

/-- The addition leads to the breakpoint. -/
theorem breakpointSession_steps
    : ∃ q,
        armStep (.plain .little) breakpointSession.arm = .returned 0 q
        ∧ NextWord (.plain .little) breakpointSession.arm 0xE0800000
        ∧ NextWord (.plain .little) q 0xE7F000F0
        ∧ fetchAddress q = 4 := by
  let host := Host.plain .little
  let p := breakpointSession.arm
  have value
      : ByteStore.load (p.mem.order host) 32 p.mem.data (fetchAddress p).toNat
        = (0xE0800000 : BitVec 32) := by
    decide +kernel
  have fetched : Fetches host p 0xE0800000 :=
    value.subst (motive := fun ins => Fetches host p ins)
      (fetches_of_accessible host (by decide +kernel))
  refine ⟨(armDataProcessingShift host (afterFetch p) 0xE0800000).2, ?_,
    nextWord_of_fetches fetched, nextWord_iff.mpr ⟨?_, ?_⟩, ?_⟩
  · exact armStep_of_returned fetched (decoderOutcome_data _ _ (.inl ⟨by decide, by decide⟩))
  all_goals decide +kernel

/-- `cont` executes the addition and stops in front of the breakpoint. -/
theorem breakpoint_stops
    : ∃ t,
        (cont (.following 0) breakpointSession).result = .ok ((), t)
        ∧ fetchAddress t.arm = 4
        ∧ RunsToBreakpoint (.plain .little) breakpointSession.arm t.arm := by
  obtain ⟨q, stepped, next, breakpoint, address⟩ := breakpointSession_steps
  generalize breakpointSession = gdb at *
  have miss : ¬ IsBreakpoint (armReadWord (.plain .little) gdb.arm (fetchAddress gdb.arm) 0).2 := by
    rw [next]
    decide
  have hit (old : BitVec 32)
      : IsBreakpoint (armReadWord (.plain .little) q (fetchAddress q) old).2 :=
    (peeked_isBreakpoint_iff (.plain .little) q old).mpr (.inl ⟨_, breakpoint, by decide⟩)
  have met : Meets InPacket (fun _ => False) (fun _ t => fetchAddress t.arm = 4)
      (cont (.following 0)) gdb := by
    have executes : armStep (Env.following 0).host gdb.arm = .returned 0 q := stepped
    refine meets_cont_arm (fun arm => fetchAddress arm = 4) (meets_contLoop_miss miss ?_)
    rw [meets_stepArm_iff, executes]
    exact meets_contLoop_hit (hit _) address
  obtain ⟨⟨⟩, t, result, reached⟩ := met.ends
  exact ⟨t, result, reached,
    (cont_runsToBreakpoint_iff (.following 0) result).mpr fun stale => stale.2 ⟨_, next⟩⟩

/-- Nothing can be fetched and there is no breakpoint, but `cont` returns at once. -/
theorem staleInstruction_stops
    : ∃ t,
        (cont (.following 0xE7F000F0) outsideSession).result = .ok ((), t)
        ∧ ¬ RunsToBreakpoint (.plain .little) outsideSession.arm t.arm := by
  have breakpoint : IsBreakpoint (Env.following 0xE7F000F0).unset.instruction := by decide
  have unreadable : ¬ ∃ word, NextWord (.plain .little) outsideSession.arm word := by
    rintro ⟨word, next⟩
    exact absurd (nextWord_iff.mp next).1 (by decide +kernel)
  have hit := (peeked_isBreakpoint_iff (.plain .little) outsideSession.arm 0xE7F000F0).mpr
    (.inr ⟨breakpoint, unreadable⟩)
  have met : Meets InPacket (fun _ => False) (fun _ t => t.arm = outsideSession.arm)
      (cont (.following 0xE7F000F0)) outsideSession :=
    meets_cont_arm (fun arm => arm = outsideSession.arm)
      (meets_contLoop_hit hit rfl)
  obtain ⟨⟨⟩, t, result, same⟩ := met.ends
  refine ⟨t, result, ?_⟩
  rintro ⟨k, _, -, ⟨word, next, -⟩, -⟩
  exact unreadable ⟨word, same ▸ next⟩

end Armator.Gdb
