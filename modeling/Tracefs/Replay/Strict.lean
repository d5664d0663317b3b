import Tracefs.Replay.Dispatch
import Tracefs.Replay.Reports
import Tracefs.Replay.Simulation
import Tracefs.Replay.Stopping

/-!
# Strict mode

With `-s` a failed comparison ends the program.  Whether a record whose call ends otherwise than
recorded is the last one executed thus depends on its handler making the comparison, and on what
it compares.  The handlers of open and close make none, and the handler of write looks at the
count only.

A run is watched: once a record has deviated, executing another one ends the run and is noted.
So a violation is seen in every run in which it happens, also in one that would not end.  Until
then the watched run is that of the code.
-/

namespace Tracefs

open Bytes

/-! ## Deviating records -/

/-- The system during a replay: how the calls made end, and what the local arrays hold. -/
structure ReplaySystem where
  outcome : Nat → Syscall → CallOutcome
  p1 : Nat → Memory
  p2 : Nat → Memory

def CallOutcome.fails : CallOutcome → Bool
  | ok _ _ => false
  | failed _ _ => true

namespace ReplaySystem

variable (system : ReplaySystem)

def environment : Environment where
  answer := fun tick syscall => (system.outcome tick syscall).libc
  p1 := system.p1
  p2 := system.p2

section

variable (replayOp : ReplayOp) (page : Memory) (buf : Nat) (state : Replay)

/-- How the call of a record ends, if its handler makes one. -/
def replayed : Option CallOutcome :=
  (replayOp.run system.environment 2 page buf state).calls?.bind fun calls =>
    calls[state.calls.length]?.map (system.outcome state.calls.length)

/-- The call fails although the trace recorded a success, or the other way around. -/
def deviates : Bool :=
  match system.replayed replayOp page buf state with
  | none => false
  | some outcome => outcome.fails != decide (toInt32 (replayOp.decl.get page buf .ret) < 0)

end

end ReplaySystem

/-- The handler goes on in strict mode whatever was recorded. -/
def ReplayOp.overlooks (page : Memory) (buf : Nat) (outcome : CallOutcome) : ReplayOp → Bool
  | openFile | close => true
  | write => decide (outcome.libc % 2 ^ 64 = Userland.trfsWriteOp.get page buf .count)
  | _ => false

/-- A record of an open or a close deviates, or one of a write whose replayed result is the
count. -/
def ReplaySystem.deviatesSilently (system : ReplaySystem) (replayOp : ReplayOp) (page : Memory)
    (buf : Nat) (state : Replay) : Bool :=
  match system.replayed replayOp page buf state with
  | none => false
  | some outcome => system.deviates replayOp page buf state && replayOp.overlooks page buf outcome

/-- The operations whose handler compares with the recorded result. -/
def ReplayOp.comparesRet : ReplayOp → Bool
  | mkdir | rmdir | link | symlink | unlink | rename | read => true
  | _ => false

/-- What they have in common: unless a local array is too small, one call is made and compared. -/
theorem ReplayOp.run_of_comparesRet {replayOp : ReplayOp} (compares : replayOp.comparesRet = true)
    (env : Environment) (gflags : Nat) (page : Memory) (op : Nat) (state : Replay) :
    replayOp.run env gflags page op state = .fault ∨
      ∃ syscall, replayOp.run env gflags page op state =
        runCompared env gflags syscall (replayOp.decl.get page op .ret) state := by
  cases replayOp with
  | mkdir | rmdir | unlink => exact .inr ⟨_, rfl⟩
  | read =>
      simp only [run, trfsRunReadOp]
      split
      · exact .inr ⟨_, rfl⟩
      · exact .inl rfl
  | link | symlink | rename =>
      simp only [run, trfsRunLinkOp, trfsRunSymlinkOp, trfsRunRenameOp]
      split
      · exact .inl rfl
      · exact .inr ⟨_, rfl⟩
  | _ => cases compares

/-- A comparison of results that differ in sign fails. -/
theorem libc_ne_of_deviates {outcome : CallOutcome} {recorded : Int}
    (deviates : outcome.fails ≠ decide (recorded < 0)) : toInt32 outcome.libc ≠ recorded := by
  rw [CallOutcome.toInt32_libc]
  cases outcome with
  | ok value bounded =>
      have negative : recorded < 0 := by simpa [CallOutcome.fails] using deviates
      show (value : Int) ≠ recorded
      omega
  | failed errno positive =>
      have success : ¬ recorded < 0 := by simpa [CallOutcome.fails] using deviates
      show -1 ≠ recorded
      omega

theorem mapRetval_strict {same : Bool} (differ : same = false) (state : Replay) :
    ∃ final, mapRetval 2 same state = .exited final :=
  ⟨{ state with reports := state.reports ++ [false] }, by rw [differ]; rfl⟩

namespace ReplaySystem

variable {system : ReplaySystem} {replayOp : ReplayOp} {page : Memory} {buf : Nat} {state : Replay}

/-- The handlers that compare results exit at a deviation. -/
theorem exits_of_comparesRet (compares : replayOp.comparesRet = true)
    (deviates : system.deviates replayOp page buf state = true) :
    ∃ final, replayOp.run system.environment 2 page buf state = .exited final := by
  rcases replayOp.run_of_comparesRet compares system.environment 2 page buf state with
    fault | ⟨syscall, compared⟩
  · simp [ReplaySystem.deviates, replayed, fault, Outcome.calls?] at deviates
  · have replayed : system.replayed replayOp page buf state =
        some (system.outcome state.calls.length syscall) := by
      simp [ReplaySystem.replayed, compared, calls?_runCompared]
    simp only [ReplaySystem.deviates, replayed, bne_iff_ne] at deviates
    rw [compared, runCompared]
    exact mapRetval_strict (decide_eq_false (libc_ne_of_deviates deviates)) _

/-- The comparison that the handler of write makes is whether the result is the count. -/
theorem run_write {outcome : CallOutcome}
    (replayed : system.replayed .write page buf state = some outcome) :
    ∃ called, ReplayOp.run system.environment 2 .write page buf state =
      mapRetval 2 (ReplayOp.overlooks page buf outcome .write) called := by
  obtain ⟨syscall, compared⟩ : ∃ syscall, ReplayOp.run system.environment 2 .write page buf state =
      mapRetval 2 (toInt32 (system.outcome state.calls.length syscall).libc % 2 ^ 64 =
        Userland.trfsWriteOp.get page buf .count)
        { state with calls := state.calls ++ [syscall] } := ⟨_, rfl⟩
  have ended : system.outcome state.calls.length syscall = outcome := by
    simpa [ReplaySystem.replayed, compared, calls?_mapRetval] using replayed
  rw [compared, ended, CallOutcome.toInt32_libc]
  exact ⟨_, rfl⟩

/-- A deviation that its handler does not overlook ends the run. -/
theorem exits_of_deviates (deviates : system.deviates replayOp page buf state = true)
    (noticed : system.deviatesSilently replayOp page buf state = false) :
    ∃ final, replayOp.run system.environment 2 page buf state = .exited final := by
  cases replayed : system.replayed replayOp page buf state with
  | none => simp [ReplaySystem.deviates, replayed] at deviates
  | some outcome =>
      simp only [deviatesSilently, replayed, deviates, Bool.true_and] at noticed
      cases replayOp with
      | mkdir | rmdir | link | symlink | unlink | rename | read =>
          exact exits_of_comparesRet rfl deviates
      | openFile | close => cases noticed
      | write =>
          obtain ⟨called, compared⟩ := run_write replayed
          rw [compared]
          exact mapRetval_strict noticed called
      -- truncate and the attribute calls are not made again
      | trunct =>
          simp [ReplaySystem.replayed, ReplayOp.run, trfsRunTrunctOp, Outcome.calls?] at replayed
      | setxattr | getxattr | listxattr | removexattr =>
          simp [ReplaySystem.replayed, ReplayOp.run, trfsRunSetxattrOp, trfsRunGetxattrOp,
            trfsRunListxattrOp, trfsRunRemovexattrOp, runXattr, calls?_mapRetval] at replayed

theorem deviates_of_silently (silent : system.deviatesSilently replayOp page buf state = true) :
    system.deviates replayOp page buf state = true := by
  unfold deviatesSilently at silent
  split at silent
  · cases silent
  · exact (Bool.and_eq_true_iff.mp silent).1

end ReplaySystem

/-! ## Watched runs -/

structure Watched where
  replay : Replay
  /-- A record has deviated. -/
  deviated : Bool
  /-- A record has been executed after one that deviated. -/
  violated : Bool

abbrev Deviation := ReplayOp → Memory → Nat → Replay → Bool

/-- The handlers in strict mode, until a record is executed after one that `deviation` tells. -/
def watch (system : ReplaySystem) (deviation : Deviation) : Handlers Watched :=
  fun replayOp page buf state =>
    if state.deviated then .exited { state with violated := true }
    else
      match replayOp.run system.environment 2 page buf state.replay with
      | .returned next => .returned ⟨next, deviation replayOp page buf state.replay, false⟩
      | .exited next => .exited ⟨next, deviation replayOp page buf state.replay, false⟩
      | .fault => .fault

/-- The state in which a handler has exited. -/
def MainResult.exit? {State : Type} : MainResult State → Option State
  | exited progress => some progress.state
  | _ => none

/-- No run of any length executes a record after one that deviates. -/
def StopsAtFirst (system : ReplaySystem) (deviation : Deviation) (heap : Nat → Memory)
    (file : List UInt8) (page : Memory) (state : Replay) : Prop :=
  ∀ steps fuel, (treplay (watch system deviation) heap file steps fuel page
    ⟨state, false, false⟩).exit?.map Watched.violated ≠ some true

/-- No run of any length executes a record that deviates. -/
def NeverDeviates (system : ReplaySystem) (deviation : Deviation) (heap : Nat → Memory)
    (file : List UInt8) (page : Memory) (state : Replay) : Prop :=
  ∀ steps fuel, (treplay ((watch system deviation).stopping fun _ next => next.deviated) heap file
    steps fuel page ⟨state, false, false⟩).exit?.map Watched.deviated ≠ some true

/-- A watched run is that of the code as long as nothing is violated. -/
def watching : Simulation Watched Replay where
  going left right := left.replay = right
  exits left right := left.replay = right
  stopped left := left.violated = true

theorem watch_follows_replay (system : ReplaySystem) (deviation : Deviation)
    (heap : Nat → Memory) (file : List UInt8) (steps fuel : Nat) (page : Memory) (state : Replay) :
    watching.Results
      (treplay (watch system deviation) heap file steps fuel page ⟨state, false, false⟩)
      (treplay (ReplayOp.run system.environment 2) heap file steps fuel page state) := by
  have calls : watching.Calls (watch system deviation) (ReplayOp.run system.environment 2) := by
    rintro replayOp page buf left _ rfl
    unfold watch
    split
    · exact .stopped rfl
    · cases replayOp.run system.environment 2 page buf left.replay with
      | returned next => exact .returned rfl
      | exited next => exact .exited rfl
      | fault => exact .fault
  exact Simulation.treplayLoop calls heap file steps fuel ⟨rfl, rfl, rfl, rfl, rfl⟩

/-- The watched runs for two notions of deviation, up to what is said of the last record. -/
def sameWatch : Simulation Watched Watched where
  going := Eq
  exits left right := left.violated = right.violated
  stopped _ := False

theorem StopsAtFirst.of_agree {system : ReplaySystem} {first second : Deviation}
    (agree : ∀ replayOp page buf state next,
      replayOp.run system.environment 2 page buf state = .returned next →
        first replayOp page buf state = second replayOp page buf state)
    {heap : Nat → Memory} {file : List UInt8} {page : Memory} {state : Replay}
    (stops : StopsAtFirst system second heap file page state) :
    StopsAtFirst system first heap file page state := by
  have calls : sameWatch.Calls (watch system first) (watch system second) := by
    rintro replayOp page buf state _ rfl
    unfold watch
    split
    · exact .exited rfl
    · cases ended : replayOp.run system.environment 2 page buf state.replay with
      | returned next =>
          dsimp only
          rw [agree replayOp page buf state.replay next ended]
          exact .returned rfl
      | exited next => exact .exited rfl
      | fault => exact .fault
  intro steps fuel noted
  apply stops steps fuel
  have results : sameWatch.Results
      (treplay (watch system first) heap file steps fuel page ⟨state, false, false⟩)
      (treplay (watch system second) heap file steps fuel page ⟨state, false, false⟩) :=
    Simulation.treplayLoop calls heap file steps fuel ⟨rfl, rfl, rfl, rfl, rfl⟩
  generalize treplay (watch system first) heap file steps fuel page ⟨state, false, false⟩ = left
    at noted results
  generalize treplay (watch system second) heap file steps fuel page ⟨state, false, false⟩ = right
    at results ⊢
  cases results with
  | exited same => exact (congrArg some same.1.symm).trans noted
  | stopped never => cases never
  | _ => cases noted

/-- A record that lets the run go on deviates silently if it deviates. -/
theorem deviates_eq_of_returned {system : ReplaySystem} {replayOp : ReplayOp} {page : Memory}
    {buf : Nat} {state next : Replay}
    (returned : replayOp.run system.environment 2 page buf state = .returned next) :
    system.deviates replayOp page buf state =
      system.deviatesSilently replayOp page buf state := by
  cases silent : system.deviatesSilently replayOp page buf state with
  | true => exact ReplaySystem.deviates_of_silently silent
  | false =>
      rw [Bool.eq_false_iff]
      intro deviates
      obtain ⟨final, exited⟩ := ReplaySystem.exits_of_deviates deviates silent
      rw [returned] at exited
      cases exited

/-- A handler that exits has noticed the deviation, if there is one. -/
theorem deviatesSilently_of_exited {system : ReplaySystem} {replayOp : ReplayOp} {page : Memory}
    {buf : Nat} {state final : Replay}
    (exited : replayOp.run system.environment 2 page buf state = .exited final) :
    system.deviatesSilently replayOp page buf state = false := by
  rw [Bool.eq_false_iff]
  intro silent
  unfold ReplaySystem.deviatesSilently at silent
  split at silent
  · cases silent
  next outcome replayed =>
    have overlooked := (Bool.and_eq_true_iff.mp silent).2
    cases replayOp with
    | openFile | close => cases exited
    | write =>
        obtain ⟨called, compared⟩ := ReplaySystem.run_write replayed
        rw [compared, overlooked] at exited
        cases exited
    | _ => cases overlooked

/-- As long as no record deviates silently, nothing is violated. -/
theorem growing_watch (system : ReplaySystem) :
    Growing (watch system system.deviatesSilently) (fun _ next => next.deviated)
      (fun _ _ => True) fun state => state.deviated = false ∧ state.violated = false where
  refl _ := trivial
  trans _ _ := trivial
  returned := by
    intro replayOp page buf state next returned
    refine ⟨trivial, fun well silent => ⟨silent, ?_⟩⟩
    unfold watch at returned
    rw [if_neg (by rw [well.1]; decide)] at returned
    cases ended : replayOp.run system.environment 2 page buf state.replay with
    | returned => cases (by simpa only [ended] using returned); rfl
    | _ => simp only [ended] at returned; cases returned
  exited := by
    intro replayOp page buf state next exited
    refine ⟨trivial, fun well => ?_⟩
    unfold watch at exited
    rw [if_neg (by rw [well.1]; decide)] at exited
    cases ended : replayOp.run system.environment 2 page buf state.replay with
    | exited =>
        simp only [ended] at exited
        cases exited
        exact ⟨deviatesSilently_of_exited ended, rfl⟩
    | _ => simp only [ended] at exited; cases exited

/-- If no executed record deviates silently, a strict run stops at its first deviation. -/
theorem StopsAtFirst.of_neverDeviates {system : ReplaySystem} {heap : Nat → Memory}
    {file : List UInt8} {page : Memory} {state : Replay}
    (never : NeverDeviates system system.deviatesSilently heap file page state) :
    StopsAtFirst system system.deviatesSilently heap file page state := by
  intro steps fuel noted
  have cut := treplayLoop_stopping heap (growing_watch system) file steps fuel
    (.start file page ⟨state, false, false⟩) ⟨rfl, rfl⟩
  have silent := never steps fuel
  rw [treplay] at noted silent
  rcases cut with ⟨-, well⟩ | ⟨before, stopped, -, stops, exited, -⟩
  · cases ended : treplayLoop (watch system system.deviatesSilently) heap file steps fuel
      (.start file page ⟨state, false, false⟩) with
    | exited progress =>
        rw [fileReached_of_ended _ heap file steps fuel _ progress (by rw [ended]; rfl)] at well
        rw [ended] at noted
        exact Bool.false_ne_true (well.2.symm.trans (Option.some.inj noted))
    | _ =>
        rw [ended] at noted
        cases noted
  · rw [exited] at silent
    exact silent (congrArg some stops)

/-- In strict mode no record after the first deviating one is executed exactly when none is
executed after a record that deviates silently; in particular when no executed record does. -/
theorem strict_stops_iff (system : ReplaySystem) (heap : Nat → Memory) (file : List UInt8)
    (page : Memory) (state : Replay) :
    (StopsAtFirst system system.deviates heap file page state ↔
      StopsAtFirst system system.deviatesSilently heap file page state) ∧
      (NeverDeviates system system.deviatesSilently heap file page state →
        StopsAtFirst system system.deviates heap file page state) := by
  have noticed : StopsAtFirst system system.deviatesSilently heap file page state →
      StopsAtFirst system system.deviates heap file page state := by
    apply StopsAtFirst.of_agree
    intro replayOp page buf state next returned
    exact deviates_eq_of_returned returned
  refine ⟨⟨?_, noticed⟩, fun never => noticed (.of_neverDeviates never)⟩
  apply StopsAtFirst.of_agree
  intro replayOp page buf state next returned
  exact (deviates_eq_of_returned returned).symm

/-- The file `a` was opened and then unlinked, both with success. -/
def openThenUnlink : List UInt8 :=
  (TraceRecord.mk (.openFile Name.a 0 0 1 0) 1 2 fun _ => 0).bytes ++
    (TraceRecord.mk (.unlink Name.a 0) 1 3 fun _ => 0).bytes

theorem enoent_pos : 0 < 2 := by decide

/-- A system in which nothing is found. -/
def emptySystem : ReplaySystem := ⟨fun _ _ => .failed 2 enoent_pos, fun _ _ => 0, fun _ _ => 0⟩

/-- The open fails at the replay, and the record after it is executed. -/
theorem not_stopsAtFirst_openThenUnlink :
    (treplay (ReplayOp.run emptySystem.environment 2) (fun _ _ => 0) openThenUnlink 3 3
        (fun _ => 0) ⟨[], [], []⟩).exit?.map Replay.calls =
      some [.openFile (some Name.a.text) 0 0, .unlink (some Name.a.text)] ∧
    ¬ StopsAtFirst emptySystem emptySystem.deviates (fun _ _ => 0) openThenUnlink (fun _ => 0)
      ⟨[], [], []⟩ := by
  refine ⟨by decide +kernel, ?_⟩
  intro stops
  exact stops 3 3 (by decide +kernel)

end Tracefs
