import Tracefs.Replay.Parser

/-!
# A replay that stops early

With `-s` a handler ends the program at a comparison that fails.  Up to there the program does what
it does without the option: the same records are handled and the same calls made, and no comparison
before the last has failed.  The program without the option need not come to an end; what it has
done after as many rounds is looked at instead.
-/

namespace Tracefs

open Bytes

variable {State : Type}

/-- How far the record loop has come where it ends, where its fuel does, or where a handler has no
defined end. -/
def pageReached (handle : Handlers State) (heap : Nat → Memory) (base : Nat) (page : Memory) :
    (fuel buf : Nat) → (len : Int) → Progress State → Progress State
  | 0, _, _, progress => progress
  | fuel + 1, buf, len, progress =>
      if len ≤ 0 then progress
      else
        let rsize := page.word (buf + 4) 2
        if rsize > len then progress
        else
          match parseRound handle heap base page buf rsize progress with
          | .returned next =>
              pageReached handle heap base page fuel (buf + rsize) (len - rsize) next
          | .exited next => next
          | .fault => progress

@[inherit_doc pageReached]
def fileReached (handle : Handlers State) (heap : Nat → Memory) (file : List UInt8) (steps : Nat) :
    (fuel : Nat) → ReplayMain State → Progress State
  | 0, main => main.progress
  | fuel + 1, main =>
      if main.fsize ≤ 0 then main.progress
      else
        let data := (file.drop main.position).take replayPageSize
        let page := main.page.store 0 data
        if data.length = 0 then main.progress
        else
          let reached :=
            pageReached handle heap main.position page steps 0 data.length main.progress
          match trfsReadTfileBuf handle heap main.position page steps 0 data.length
            main.progress with
          | .done leftBytes progress =>
              let next := main.seekBack data leftBytes progress
              if next.fsize < 2 ^ 31 then fileReached handle heap file steps fuel next
              else reached
          | .exited _ | .fault | .running => reached

/-- The handlers, of which each exits when `stop` holds between its first and its last state. -/
def Handlers.stopping (handle : Handlers State) (stop : State → State → Bool) : Handlers State :=
  fun op page buf state =>
    match handle op page buf state with
    | .returned next => if stop state next then .exited next else .returned next
    | ended => ended

/-- What a handler does to the state only adds to it.  A state is good as long as nothing has
happened that `stop` would have stopped at. -/
structure Growing (handle : Handlers State) (stop : State → State → Bool)
    (grows : State → State → Prop) (good : State → Prop) : Prop where
  refl : ∀ state, grows state state
  trans : ∀ {first second third}, grows first second → grows second third → grows first third
  returned : ∀ {op page buf state next}, handle op page buf state = .returned next →
    grows state next ∧ (good state → stop state next = false → good next)
  exited : ∀ {op page buf state next}, handle op page buf state = .exited next →
    grows state next ∧ (good state → good next)

def Progress.Before (grows : State → State → Prop) (first second : Progress State) : Prop :=
  grows first.state second.state ∧ first.visits <+: second.visits

/-- The first result is the second, of a run that has gone well as far as it came, or that of a run
that has exited on the way, at the first thing that went wrong. -/
def CutOff {Result : Type} (stop : State → State → Bool) (grows : State → State → Prop)
    (good : State → Prop) (exited : Progress State → Result) (first second : Result)
    (reached : Progress State) : Prop :=
  (first = second ∧ good reached.state) ∨
    ∃ before stopped, good before ∧ stop before stopped.state = true ∧ first = exited stopped ∧
      stopped.Before grows reached

section Runs

variable (handle : Handlers State) {stop : State → State → Bool} {grows : State → State → Prop}
  {good : State → Prop} (heap : Nat → Memory)

/-- Where the record loop has a defined end, that is how far it has come. -/
theorem pageReached_of_ended (base : Nat) (page : Memory) (fuel buf : Nat) (len : Int)
    (progress : Progress State) :
    ∀ final ∈ (trfsReadTfileBuf handle heap base page fuel buf len progress).progress?,
      pageReached handle heap base page fuel buf len progress = final := by
  induction fuel generalizing buf len progress with
  | zero => rintro final ⟨⟩
  | succ fuel inductionHypothesis =>
      rw [trfsReadTfileBuf, pageReached]
      dsimp only
      split
      next =>
        rintro final ⟨⟩
        rfl
      next =>
        split
        next =>
          rintro final ⟨⟩
          rfl
        next =>
          cases parseRound handle heap base page buf (page.word (buf + 4) 2) progress with
          | returned next => exact inductionHypothesis _ _ next
          | exited next =>
              rintro final ⟨⟩
              rfl
          | fault => rintro final ⟨⟩

theorem fileReached_of_ended (file : List UInt8) (steps fuel : Nat) (main : ReplayMain State) :
    ∀ final ∈ (treplayLoop handle heap file steps fuel main).progress?,
      fileReached handle heap file steps fuel main = final := by
  induction fuel generalizing main with
  | zero => rintro final ⟨⟩
  | succ fuel inductionHypothesis =>
      rw [treplayLoop, fileReached]
      dsimp only
      split
      next =>
        rintro final ⟨⟩
        rfl
      next =>
        split
        next =>
          rintro final ⟨⟩
          rfl
        next =>
          generalize main.page.store 0 ((file.drop main.position).take replayPageSize) = page
          have ended := pageReached_of_ended handle heap main.position page steps 0
            ((file.drop main.position).take replayPageSize).length main.progress
          cases parsed : trfsReadTfileBuf handle heap main.position page steps 0
            ((file.drop main.position).take replayPageSize).length main.progress with
          | done leftBytes progress =>
              dsimp only
              split
              next => exact inductionHypothesis _
              next => rintro final ⟨⟩
          | exited progress =>
              rintro final ⟨⟩
              exact ended progress (by rw [parsed]; rfl)
          | fault => rintro final ⟨⟩
          | running => rintro final ⟨⟩

variable {handle}

/-- A round with handlers that stop early is the same round, or exits where that returns. -/
theorem parseRound_stopping (base : Nat) (page : Memory) (buf rsize : Nat)
    (progress : Progress State) :
    (parseRound (handle.stopping stop) heap base page buf rsize progress =
        parseRound handle heap base page buf rsize progress ∧
      ∀ next, parseRound handle heap base page buf rsize progress = .returned next →
        next.state = progress.state ∨ stop progress.state next.state = false) ∨
      ∃ next, parseRound handle heap base page buf rsize progress = .returned next ∧
        parseRound (handle.stopping stop) heap base page buf rsize progress = .exited next ∧
        stop progress.state next.state = true := by
  unfold parseRound Handlers.stopping
  dsimp only
  split
  next =>
    refine .inl ⟨rfl, ?_⟩
    rintro next ⟨⟩
    exact .inl rfl
  next op _ =>
    cases outcome : handle op page buf progress.state with
    | returned state =>
        by_cases stops : stop progress.state state = true
        · exact .inr ⟨_, rfl, by simp only [if_pos stops], stops⟩
        · refine .inl ⟨by simp only [if_neg stops], ?_⟩
          rintro next ⟨⟩
          exact .inr (Bool.eq_false_iff.mpr stops)
    | exited state => exact .inl ⟨rfl, by rintro next ⟨⟩⟩
    | fault => exact .inl ⟨rfl, by rintro next ⟨⟩⟩

variable (growing : Growing handle stop grows good)

include growing

theorem Growing.before_refl (progress : Progress State) : progress.Before grows progress :=
  ⟨growing.refl progress.state, List.prefix_rfl⟩

theorem Growing.before_trans {first second third : Progress State}
    (early : first.Before grows second) (late : second.Before grows third) :
    first.Before grows third :=
  ⟨growing.trans early.1 late.1, early.2.trans late.2⟩

theorem Growing.parseRound_returned {base : Nat} {page : Memory} {buf rsize : Nat}
    {progress next : Progress State}
    (ended : parseRound handle heap base page buf rsize progress = .returned next) :
    progress.Before grows next ∧ (good progress.state →
      next.state = progress.state ∨ stop progress.state next.state = false → good next.state) := by
  unfold Tracefs.parseRound at ended
  dsimp only at ended
  split at ended
  next =>
    cases ended
    exact ⟨⟨growing.refl _, List.prefix_append _ _⟩, fun well _ => well⟩
  next op _ =>
    cases outcome : handle op page buf progress.state with
    | returned state =>
        rw [outcome] at ended
        cases ended
        obtain ⟨grown, stays⟩ := growing.returned outcome
        refine ⟨⟨grown, List.prefix_append _ _⟩, ?_⟩
        rintro well (same | silent)
        · exact same ▸ well
        · exact stays well silent
    | exited state =>
        rw [outcome] at ended
        cases ended
    | fault =>
        rw [outcome] at ended
        cases ended

theorem Growing.parseRound_exited {base : Nat} {page : Memory} {buf rsize : Nat}
    {progress next : Progress State}
    (ended : parseRound handle heap base page buf rsize progress = .exited next) :
    progress.Before grows next ∧ (good progress.state → good next.state) := by
  unfold Tracefs.parseRound at ended
  dsimp only at ended
  split at ended
  next => cases ended
  next op _ =>
    cases outcome : handle op page buf progress.state with
    | exited state =>
        rw [outcome] at ended
        cases ended
        obtain ⟨grown, stays⟩ := growing.exited outcome
        exact ⟨⟨grown, List.prefix_append _ _⟩, stays⟩
    | returned state =>
        rw [outcome] at ended
        cases ended
    | fault =>
        rw [outcome] at ended
        cases ended

theorem Growing.pageReached (base : Nat) (page : Memory) (fuel buf : Nat) (len : Int)
    (progress : Progress State) :
    progress.Before grows (pageReached handle heap base page fuel buf len progress) := by
  induction fuel generalizing buf len progress with
  | zero => exact growing.before_refl progress
  | succ fuel inductionHypothesis =>
      rw [Tracefs.pageReached]
      dsimp only
      split
      next => exact growing.before_refl progress
      next =>
        split
        next => exact growing.before_refl progress
        next =>
          split
          next next returned =>
            exact growing.before_trans (growing.parseRound_returned heap returned).1
              (inductionHypothesis _ _ next)
          next next exited => exact (growing.parseRound_exited heap exited).1
          next => exact growing.before_refl progress

/-- The page that is parsed has been gone through as far as its parser came. -/
theorem Growing.fileReached (file : List UInt8) (steps fuel : Nat) (main : ReplayMain State) :
    main.progress.Before grows (fileReached handle heap file steps fuel main) := by
  induction fuel generalizing main with
  | zero => exact growing.before_refl main.progress
  | succ fuel inductionHypothesis =>
      rw [Tracefs.fileReached]
      dsimp only
      split
      next => exact growing.before_refl main.progress
      next =>
        split
        next => exact growing.before_refl main.progress
        next =>
          generalize main.page.store 0 ((file.drop main.position).take replayPageSize) = page
          have parsed := growing.pageReached heap main.position page steps 0
            ((file.drop main.position).take replayPageSize).length main.progress
          have ended := pageReached_of_ended handle heap main.position page steps 0
            ((file.drop main.position).take replayPageSize).length main.progress
          split
          next leftBytes progress done =>
            split
            next =>
              rw [ended progress (by rw [done]; rfl)] at parsed
              exact growing.before_trans parsed (inductionHypothesis (main.seekBack _ _ progress))
            next => exact parsed
          all_goals exact parsed

theorem trfsReadTfileBuf_stopping (base : Nat) (page : Memory) (fuel buf : Nat) (len : Int)
    (progress : Progress State) (well : good progress.state) :
    CutOff stop grows good Parsed.exited
      (trfsReadTfileBuf (handle.stopping stop) heap base page fuel buf len progress)
      (trfsReadTfileBuf handle heap base page fuel buf len progress)
      (Tracefs.pageReached handle heap base page fuel buf len progress) := by
  induction fuel generalizing buf len progress with
  | zero => exact .inl ⟨rfl, well⟩
  | succ fuel inductionHypothesis =>
      rw [trfsReadTfileBuf, trfsReadTfileBuf, Tracefs.pageReached]
      dsimp only
      split
      next => exact .inl ⟨rfl, well⟩
      next =>
        split
        next => exact .inl ⟨rfl, well⟩
        next =>
          rcases parseRound_stopping heap base page buf (page.word (buf + 4) 2) progress with
            ⟨same, silent⟩ | ⟨next, returned, stopped, stops⟩
          · rw [same]
            cases round : parseRound handle heap base page buf (page.word (buf + 4) 2) progress with
            | returned next =>
                exact inductionHypothesis _ _ next
                  ((growing.parseRound_returned heap round).2 well (silent next round))
            | exited next => exact .inl ⟨rfl, (growing.parseRound_exited heap round).2 well⟩
            | fault => exact .inl ⟨rfl, well⟩
          · rw [returned, stopped]
            exact .inr ⟨progress.state, next, well, stops, rfl,
              growing.pageReached heap base page fuel _ _ next⟩

theorem treplayLoop_stopping (file : List UInt8) (steps fuel : Nat) (main : ReplayMain State)
    (well : good main.progress.state) :
    CutOff stop grows good MainResult.exited
      (treplayLoop (handle.stopping stop) heap file steps fuel main)
      (treplayLoop handle heap file steps fuel main)
      (Tracefs.fileReached handle heap file steps fuel main) := by
  induction fuel generalizing main with
  | zero => exact .inl ⟨rfl, well⟩
  | succ fuel inductionHypothesis =>
      rw [treplayLoop, treplayLoop, Tracefs.fileReached]
      dsimp only
      split
      next => exact .inl ⟨rfl, well⟩
      next =>
        split
        next => exact .inl ⟨rfl, well⟩
        next =>
          generalize main.page.store 0 ((file.drop main.position).take replayPageSize) = page
          have ended := pageReached_of_ended handle heap main.position page steps 0
            ((file.drop main.position).take replayPageSize).length main.progress
          rcases trfsReadTfileBuf_stopping heap growing main.position page steps 0
            ((file.drop main.position).take replayPageSize).length main.progress well with
            ⟨same, stillWell⟩ | ⟨before, stopped, good, stops, exited, reaches⟩
          · rw [same]
            cases parsed : trfsReadTfileBuf handle heap main.position page steps 0
              ((file.drop main.position).take replayPageSize).length main.progress with
            | done leftBytes progress =>
                have final := ended progress (by rw [parsed]; rfl)
                dsimp only
                split
                next =>
                  rw [final] at stillWell
                  exact inductionHypothesis (main.seekBack _ _ progress) stillWell
                next => exact .inl ⟨rfl, stillWell⟩
            | exited | fault | running => exact .inl ⟨rfl, stillWell⟩
          · rw [exited]
            refine .inr ⟨before, stopped, good, stops, rfl, ?_⟩
            split
            next leftBytes progress done =>
              split
              next =>
                rw [ended progress (by rw [done]; rfl)] at reaches
                exact growing.before_trans reaches
                  (growing.fileReached heap file steps fuel (main.seekBack _ _ progress))
              next => exact reaches
            all_goals exact reaches

end Runs

/-! ## Strict mode -/

/-- A comparison has failed. -/
def Replay.mismatched (state next : Replay) : Bool := next.reports = state.reports ++ [false]

/-- Calls and reports are added at the end. -/
def Replay.Grows (state next : Replay) : Prop :=
  state.calls <+: next.calls ∧ state.reports <+: next.reports

/-- Whatever the flags are, a handler returns without a comparison or ends with one, in a state with
no more reports. -/
def Replay.Ends (state : Replay) (act : Nat → Outcome Replay) : Prop :=
  ∃ called : Replay, called.reports = state.reports ∧ state.calls <+: called.calls ∧
    ((∀ gflags, act gflags = .returned called) ∨
      ∃ same, ∀ gflags, act gflags = mapRetval gflags same called)

theorem ends_runCompared (env : Environment) (syscall : Syscall) (recorded : Nat)
    (state : Replay) : state.Ends fun gflags => runCompared env gflags syscall recorded state :=
  ⟨(state.call env syscall).2, rfl, List.prefix_append _ _, .inr ⟨_, fun _ => rfl⟩⟩

theorem ends_runXattr (page : Memory) (op : Nat) (state : Replay) (decl : StructDecl Field) :
    state.Ends fun gflags => runXattr gflags page op state decl :=
  ⟨state, rfl, List.prefix_rfl, .inr ⟨_, fun _ => rfl⟩⟩

theorem ReplayOp.run_cases (env : Environment) (op : ReplayOp) (page : Memory) (buf : Nat)
    (state : Replay) :
    (∀ gflags, op.run env gflags page buf state = .fault) ∨
      ∃ called : Replay, called.reports = state.reports ∧ state.calls <+: called.calls ∧
        ((∀ gflags, op.run env gflags page buf state = .returned called) ∨
          ∃ same, ∀ gflags, op.run env gflags page buf state = mapRetval gflags same called) := by
  cases op with
  | openFile | close =>
      refine .inr ⟨_, ?_, ?_, .inl fun _ => rfl⟩
      · rfl
      · exact List.prefix_append _ _
  | trunct => exact .inr ⟨state, rfl, List.prefix_rfl, .inl fun _ => rfl⟩
  | mkdir | rmdir | unlink => exact .inr (ends_runCompared env _ _ state)
  | read =>
      by_cases fits : env.ReadFits state.calls.length
          (trfsOmapGetfd state.omap (Userland.trfsReadOp.get page buf .addr)
            (toInt32 (Userland.trfsReadOp.get page buf .pid)))
          (Userland.trfsReadOp.get page buf .count)
      · simp only [run, trfsRunReadOp, if_pos fits]
        exact .inr (ends_runCompared env _ _ state)
      · exact .inl fun _ => if_neg fits
  | write =>
      exact .inr ⟨(state.call env _).2, rfl, List.prefix_append _ _, .inr ⟨_, fun _ => rfl⟩⟩
  | setxattr => exact .inr (ends_runXattr page buf state Userland.trfsSetxattrOp)
  | getxattr => exact .inr (ends_runXattr page buf state Userland.trfsGetxattrOp)
  | listxattr => exact .inr (ends_runXattr page buf state Userland.trfsListxattrOp)
  | removexattr => exact .inr (ends_runXattr page buf state Userland.trfsRemovexattrOp)
  | link | symlink =>
      simp only [run, trfsRunLinkOp, trfsRunSymlinkOp]
      generalize unpackNames page _ _ _ _ _ = unpacked
      cases unpacked with
      | none => exact .inl fun _ => rfl
      | some arrays => exact .inr (ends_runCompared env _ _ state)
  | rename =>
      simp only [run, trfsRunRenameOp]
      generalize unpackRename page _ _ _ _ _ = unpacked
      cases unpacked with
      | none => exact .inl fun _ => rfl
      | some arrays => exact .inr (ends_runCompared env _ _ state)

theorem Replay.mismatched_self {state called : Replay} (reports : called.reports = state.reports) :
    state.mismatched called = false := by
  simp [mismatched, reports]

/-- With `-s` a handler differs from the one without in exiting at a failed comparison. -/
theorem ReplayOp.run_strict (env : Environment) :
    ReplayOp.run env 2 = Handlers.stopping (ReplayOp.run env 0) Replay.mismatched := by
  funext op page buf state
  rw [Handlers.stopping]
  rcases op.run_cases env page buf state with
    fault | ⟨called, reports, -, returned | ⟨same, compared⟩⟩
  · rw [fault, fault]
  · rw [returned, returned]
    exact (if_neg (Bool.eq_false_iff.mp (Replay.mismatched_self reports))).symm
  · rw [compared, compared]
    cases same <;> simp [mapRetval, Replay.mismatched, reports]

/-- Without `-s` a handler that ends has returned, with at most one report more. -/
theorem growing_run (env : Environment) :
    Growing (ReplayOp.run env 0) Replay.mismatched Replay.Grows (false ∉ ·.reports) where
  refl state := ⟨List.prefix_rfl, List.prefix_rfl⟩
  trans first second := ⟨first.1.trans second.1, first.2.trans second.2⟩
  returned := by
    intro op page buf state next ended
    rcases op.run_cases env page buf state with
      fault | ⟨called, reports, calls, returned | ⟨same, compared⟩⟩
    · rw [fault] at ended
      cases ended
    · rw [returned] at ended
      cases ended
      exact ⟨⟨calls, reports ▸ List.prefix_rfl⟩, fun clean _ => reports ▸ clean⟩
    · have appended : next = { called with reports := called.reports ++ [same] } := by
        rw [compared] at ended
        cases same <;> exact (Outcome.returned.inj ended).symm
      subst appended
      refine ⟨⟨calls, reports ▸ List.prefix_append _ _⟩, fun clean silent => ?_⟩
      cases same with
      | true => simpa [reports] using clean
      | false => simp [Replay.mismatched, reports] at silent
  exited := by
    intro op page buf state next ended
    rcases op.run_cases env page buf state with
      fault | ⟨called, -, -, returned | ⟨same, compared⟩⟩
    · rw [fault] at ended
      cases ended
    · rw [returned] at ended
      cases ended
    · rw [compared] at ended
      cases same <;> cases ended

/-- A strict replay is the plain one, in which no comparison fails as far as it comes, or it exits
on the way: at the first comparison that fails, having handled the records and made the calls of
the plain one up to there.  Where the plain one has a defined end, that is how far it comes. -/
theorem strict_replay_cuts_plain_replay (env : Environment) (heap : Nat → Memory)
    (file : List UInt8) (steps fuel : Nat) (page : Memory) :
    let start : ReplayMain Replay := .start file page ⟨[], [], []⟩
    let strict := treplay (ReplayOp.run env 2) heap file steps fuel page ⟨[], [], []⟩
    let plain := treplay (ReplayOp.run env 0) heap file steps fuel page ⟨[], [], []⟩
    let reached := fileReached (ReplayOp.run env 0) heap file steps fuel start
    ((strict = plain ∧ false ∉ reached.state.reports) ∨
      ∃ stopped clean, strict = .exited stopped ∧ stopped.state.reports = clean ++ [false] ∧
        false ∉ clean ∧ stopped.state.calls <+: reached.state.calls ∧
        stopped.state.reports <+: reached.state.reports ∧ stopped.visits <+: reached.visits) ∧
      ∀ final ∈ plain.progress?, reached = final := by
  have cut := treplayLoop_stopping heap (growing_run env) file steps fuel
    (.start file page ⟨[], [], []⟩) List.not_mem_nil
  rw [← ReplayOp.run_strict env] at cut
  refine ⟨?_, fileReached_of_ended _ heap file steps fuel _⟩
  rcases cut with same | ⟨before, stopped, clean, stops, exited, ⟨calls, reports⟩, visits⟩
  · exact .inl same
  · exact .inr ⟨stopped, before.reports, exited, of_decide_eq_true stops, clean, calls, reports,
      visits⟩

end Tracefs
