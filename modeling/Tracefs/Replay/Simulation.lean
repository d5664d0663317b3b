import Tracefs.Replay.Parser

/-!
# Runs with different handlers

The parser and the page loop pass the state of the handlers on and do not look at it.  So tables of
handlers whose calls end alike make runs that end alike.  The first of the two runs may do less: it
may exit by itself, or have no defined end.
-/

namespace Tracefs

open Bytes

/-- Which states of two runs belong together, while both go on and when both have exited, and the
states in which the first has exited by itself. -/
structure Simulation (Left Right : Type) where
  going : Left → Right → Prop
  exits : Left → Right → Prop
  stopped : Left → Prop

namespace Simulation

variable {Left Right : Type} (sim : Simulation Left Right)

inductive Outcomes : Outcome Left → Outcome Right → Prop where
  | returned {left right} : sim.going left right → Outcomes (.returned left) (.returned right)
  | exited {left right} : sim.exits left right → Outcomes (.exited left) (.exited right)
  | stopped {left other} : sim.stopped left → Outcomes (.exited left) other
  | fault {other} : Outcomes .fault other

def Calls (first : Handlers Left) (second : Handlers Right) : Prop :=
  ∀ op page buf left right, sim.going left right →
    sim.Outcomes (first op page buf left) (second op page buf right)

/-- Besides, the same records have been visited. -/
def progress : Simulation (Progress Left) (Progress Right) where
  going left right := sim.going left.state right.state ∧ left.visits = right.visits
  exits left right := sim.exits left.state right.state ∧ left.visits = right.visits
  stopped left := sim.stopped left.state

inductive Parses : Parsed Left → Parsed Right → Prop where
  | done {left right} (ret : Nat) : sim.progress.going left right →
      Parses (.done ret left) (.done ret right)
  | exited {left right} : sim.progress.exits left right → Parses (.exited left) (.exited right)
  | stopped {left other} : sim.progress.stopped left → Parses (.exited left) other
  | fault {other} : Parses .fault other
  | running : Parses .running .running

structure Mains (left : ReplayMain Left) (right : ReplayMain Right) : Prop where
  position : left.position = right.position
  fsize : left.fsize = right.fsize
  page : left.page = right.page
  progress : sim.progress.going left.progress right.progress

inductive Results : MainResult Left → MainResult Right → Prop where
  | finished {left right} : sim.Mains left right → Results (.finished left) (.finished right)
  | partially {left right} : sim.Mains left right → Results (.partially left) (.partially right)
  | exited {left right} : sim.progress.exits left right → Results (.exited left) (.exited right)
  | stopped {left other} : sim.progress.stopped left → Results (.exited left) other
  | fault {other} : Results .fault other
  | running : Results .running .running

variable {sim} {first : Handlers Left} {second : Handlers Right}

theorem parseRound (calls : sim.Calls first second) (heap : Nat → Memory) (base : Nat)
    (page : Memory) (buf rsize : Nat) {left : Progress Left} {right : Progress Right}
    (together : sim.progress.going left right) :
    sim.progress.Outcomes (parseRound first heap base page buf rsize left)
      (parseRound second heap base page buf rsize right) := by
  obtain ⟨states, visits⟩ := together
  unfold Tracefs.parseRound
  dsimp only
  rw [← visits]
  split
  next => exact .returned ⟨states, rfl⟩
  next op _ =>
    have ended := calls op page buf left.state right.state states
    generalize first op page buf left.state = leftEnd at ended
    generalize second op page buf right.state = rightEnd at ended
    cases ended with
    | returned going => exact .returned ⟨going, rfl⟩
    | exited exits => exact .exited ⟨exits, rfl⟩
    | stopped stopped => exact .stopped stopped
    | fault => exact .fault

/-- One round after the other. -/
theorem trfsReadTfileBuf (calls : sim.Calls first second) (heap : Nat → Memory) (base : Nat)
    (page : Memory) (fuel buf : Nat) (len : Int) {left : Progress Left} {right : Progress Right}
    (together : sim.progress.going left right) :
    sim.Parses (trfsReadTfileBuf first heap base page fuel buf len left)
      (trfsReadTfileBuf second heap base page fuel buf len right) := by
  induction fuel generalizing buf len left right with
  | zero => exact .running
  | succ fuel inductionHypothesis =>
      rw [Tracefs.trfsReadTfileBuf, Tracefs.trfsReadTfileBuf]
      dsimp only
      split
      next => exact .done _ together
      next =>
        split
        next => exact .done _ together
        next =>
          have round := parseRound calls heap base page buf (page.word (buf + 4) 2) together
          generalize Tracefs.parseRound first heap base page buf (page.word (buf + 4) 2) left =
            leftRound at round
          generalize Tracefs.parseRound second heap base page buf (page.word (buf + 4) 2) right =
            rightRound at round
          cases round with
          | returned going => exact inductionHypothesis _ _ going
          | exited exits => exact .exited exits
          | stopped stopped => exact .stopped stopped
          | fault => exact .fault

theorem Mains.seekBack {left : ReplayMain Left} {right : ReplayMain Right}
    (together : sim.Mains left right) (data : List UInt8) (leftBytes : Nat)
    {leftNext : Progress Left} {rightNext : Progress Right}
    (going : sim.progress.going leftNext rightNext) :
    sim.Mains (left.seekBack data leftBytes leftNext)
      (right.seekBack data leftBytes rightNext) where
  position := by rw [ReplayMain.seekBack, ReplayMain.seekBack, together.position]
  fsize := by rw [ReplayMain.seekBack, ReplayMain.seekBack, together.fsize]
  page := by rw [ReplayMain.seekBack, ReplayMain.seekBack, together.page]
  progress := going

/-- One page after the other. -/
theorem treplayLoop (calls : sim.Calls first second) (heap : Nat → Memory) (file : List UInt8)
    (steps fuel : Nat) {left : ReplayMain Left} {right : ReplayMain Right}
    (together : sim.Mains left right) :
    sim.Results (treplayLoop first heap file steps fuel left)
      (treplayLoop second heap file steps fuel right) := by
  induction fuel generalizing left right with
  | zero => exact .running
  | succ fuel inductionHypothesis =>
      rw [Tracefs.treplayLoop, Tracefs.treplayLoop]
      rw [← together.fsize, ← together.position, ← together.page]
      dsimp only
      split
      next => exact .finished together
      next =>
        split
        next => exact .partially together
        next =>
          have parsed := trfsReadTfileBuf calls heap left.position
            (left.page.store 0 ((file.drop left.position).take replayPageSize)) steps 0
            ((file.drop left.position).take replayPageSize).length together.progress
          generalize Tracefs.trfsReadTfileBuf first heap left.position _ steps 0 _ left.progress =
            leftParsed at parsed
          generalize Tracefs.trfsReadTfileBuf second heap left.position _ steps 0 _
            right.progress = rightParsed at parsed
          cases parsed with
          | done leftBytes going =>
              have next := together.seekBack
                ((file.drop left.position).take replayPageSize) leftBytes going
              dsimp only
              rw [← next.fsize]
              split
              · exact inductionHypothesis next
              · exact .fault
          | exited exits => exact .exited exits
          | stopped stopped => exact .stopped stopped
          | fault => exact .fault
          | running => exact .running

end Simulation

end Tracefs
