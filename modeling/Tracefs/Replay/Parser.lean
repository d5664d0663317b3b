import Tracefs.Replay.Handlers

/-!
# The trace parser and the page loop

`trfs_read_tfile_buf` cuts a page into records by their size fields and
dispatches each by its type byte; `main` feeds it the trace file page by page.
Both loops take fuel.  The handlers are a parameter, and so is the heap that
`malloc` serves records from: a record shorter than its header is dispatched on
a byte of the heap.
-/

namespace Tracefs

open Bytes

/-- The `switch` of `trfs_read_tfile_buf`, with the numbers of
`Userland/trfs_ops.h`. -/
def replayDispatch (rtype : UInt8) : Option ReplayOp :=
  match rtype.toNat with
  | 6 => some .mkdir
  | 7 => some .rmdir
  | 3 => some .link
  | 5 => some .symlink
  | 4 => some .unlink
  | 9 => some .trunct
  | 10 => some .rename
  | 23 => some .openFile
  | 20 => some .read
  | 21 => some .write
  | 24 => some .close
  | _ => none

/-- One round of the record loop: where in the file the record was taken to
start, the bytes taken for it, and the handler that got it. -/
structure Visit where
  offset : Nat
  bytes : List UInt8
  op : Option ReplayOp
  deriving DecidableEq, Repr

/-- The state of the handlers, and the records handled so far, oldest first. -/
structure Progress (State : Type) where
  state : State
  visits : List Visit

/-- The code that the table of operations points to. -/
abbrev Handlers (State : Type) := ReplayOp → Memory → Nat → State → Outcome State

/-- How a run of the record loop ends, if it does. -/
inductive Parsed (State : Type) where
  | done (ret : Nat) (progress : Progress State)
  | exited (progress : Progress State)
  | fault
  | running

variable {State : Type}

/-- The progress a run of the record loop ends with, if it has a defined end. -/
def Parsed.progress? : Parsed State → Option (Progress State)
  | .done _ progress | .exited progress => some progress
  | .fault | .running => none

def parseRound (handle : Handlers State) (heap : Nat → Memory) (base : Nat) (page : Memory)
    (buf rsize : Nat) (progress : Progress State) : Outcome (Progress State) :=
  let record := (heap progress.visits.length).store 0 (page.load buf rsize)
  let op := replayDispatch (record 6)
  let visits := progress.visits ++ [⟨base + buf, page.load buf rsize, op⟩]
  match op with
  | none => .returned ⟨progress.state, visits⟩
  | some op =>
      match handle op page buf progress.state with
      | .returned state => .returned ⟨state, visits⟩
      | .exited state => .exited ⟨state, visits⟩
      | .fault => .fault

/-- `trfs_read_tfile_buf`.  `base` is the position of the page in the file; it
serves the visits only. -/
def trfsReadTfileBuf (handle : Handlers State) (heap : Nat → Memory) (base : Nat)
    (page : Memory) : (fuel buf : Nat) → (len : Int) → Progress State → Parsed State
  | 0, _, _, _ => .running
  | fuel + 1, buf, len, progress =>
      if len ≤ 0 then .done 0 progress
      else
        let rsize := page.word (buf + 4) 2
        if rsize > len then .done rsize progress
        else
          match parseRound handle heap base page buf rsize progress with
          | .returned next =>
              trfsReadTfileBuf handle heap base page fuel (buf + rsize) (len - rsize) next
          | .exited next => .exited next
          | .fault => .fault

def replayPageSize : Nat := 4096

/-- The variables of `main` at the head of its loop, and the file position. -/
structure ReplayMain (State : Type) where
  position : Nat
  fsize : Int
  page : Memory
  progress : Progress State

/-- How the page loop ends, if it does: its condition fails, `read` finds the
end of the file, a handler exits, or something undefined happens. -/
inductive MainResult (State : Type) where
  | finished (final : ReplayMain State)
  | partially (final : ReplayMain State)
  | exited (progress : Progress State)
  | fault
  | running

@[inherit_doc Parsed.progress?]
def MainResult.progress? : MainResult State → Option (Progress State)
  | .finished final | .partially final => some final.progress
  | .exited progress => some progress
  | .fault | .running => none

/-- `lseek(fd, -left_bytes, SEEK_CUR)`: a position before the file is refused. -/
def lseekBack (position leftBytes : Nat) : Nat :=
  if leftBytes ≤ position then position - leftBytes else position

/-- The rest of a round of `main`, after the parser has returned `leftBytes` for
the page `data`. -/
def ReplayMain.seekBack (main : ReplayMain State) (data : List UInt8) (leftBytes : Nat)
    (progress : Progress State) : ReplayMain State where
  position := lseekBack (main.position + data.length) leftBytes
  fsize := main.fsize - data.length + leftBytes
  page := main.page.store 0 data
  progress := progress

/-- The `while` loop of `main`.  `fuel` bounds its rounds, `steps` those of each
call of `trfs_read_tfile_buf`.  Overflow of the `int` `fsize` is undefined. -/
def treplayLoop (handle : Handlers State) (heap : Nat → Memory) (file : List UInt8)
    (steps : Nat) : (fuel : Nat) → ReplayMain State → MainResult State
  | 0, _ => .running
  | fuel + 1, main =>
      if main.fsize ≤ 0 then .finished main
      else
        let data := (file.drop main.position).take replayPageSize
        if data.length = 0 then .partially main
        else
          match trfsReadTfileBuf handle heap main.position (main.page.store 0 data) steps 0
            data.length main.progress with
          | .done leftBytes progress =>
              let next := main.seekBack data leftBytes progress
              if next.fsize < 2 ^ 31 then treplayLoop handle heap file steps fuel next
              else .fault
          | .exited progress => .exited progress
          | .fault => .fault
          | .running => .running

/-- The variables of `main` before its loop; `page` is what `malloc` returned. -/
def ReplayMain.start (file : List UInt8) (page : Memory) (state : State) : ReplayMain State :=
  ⟨0, toInt32 file.length, page, ⟨state, []⟩⟩

/-- `main` from `fstat` on. -/
def treplay (handle : Handlers State) (heap : Nat → Memory) (file : List UInt8) (steps fuel : Nat)
    (page : Memory) (state : State) : MainResult State :=
  treplayLoop handle heap file steps fuel (.start file page state)

end Tracefs
